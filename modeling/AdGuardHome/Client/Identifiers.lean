import AdGuardHome.Client.Find

namespace AdGuardHome.Client

namespace Storage

def added (s : Storage) (c : Persistent) : Storage :=
  ⟨s.index.added c, s.upstreamManager.updateCustomUpstreamConfig c⟩

/-- The storage after a stored client was replaced by a valid one with its UID. -/
def replaced (s : Storage) (stored c : Persistent) : Storage :=
  ⟨(s.index.removed stored).added c, s.upstreamManager.updateCustomUpstreamConfig c⟩

def removed (s : Storage) (stored : Persistent) : Storage :=
  ⟨s.index.removed stored, s.upstreamManager.remove stored.uid⟩

private theorem check_ok {α β : Type} {s : Storage} {check : Except Error α}
    {rest : α → EStateM Error Storage β} {value : β} {next : Storage}
    (done : (ofExcept check >>= rest) s = .ok value next) :
    ∃ passed, check = .ok passed ∧ rest passed s = .ok value next := by
  cases result : check with
  | error error =>
    rw [result] at done
    cases done
  | ok passed =>
    rw [result] at done
    exact ⟨passed, rfl, done⟩

private theorem read_ok {β : Type} {s : Storage} {rest : Storage → EStateM Error Storage β}
    {value : β} {next : Storage} (done : (get >>= rest) s = .ok value next) :
    rest s s = .ok value next := done

private theorem method_run {method : EStateM Error Index Unit} {s : Storage} {index : Index}
    (runs : method s.index = .ok () index) : onIndex method s = .ok () { s with index } := by
  simp [onIndex, runs]

variable {s next : Storage} {upstreamsError : Option String}

theorem add_ok (consistent : s.Consistent) {p : Persistent}
    (done : add p upstreamsError s = .ok () next) :
    ∃ c, p.validate upstreamsError sortedTags = .ok c ∧ next = s.added c ∧
      s.index.uidToClient.get c.uid = none := by
  obtain ⟨c, validated, done⟩ := check_ok done
  obtain ⟨_, uidFree, done⟩ := check_ok (read_ok done)
  obtain ⟨_, passed, done⟩ := check_ok done
  have free := consistent.index.unclaimed passed
  have adds : onIndex (Index.add c) s = .ok () ⟨s.index.added c, s.upstreamManager⟩ :=
    method_run (Index.add_run (Persistent.validate_hasUID validated) free.validMACs)
  simp only [bind, EStateM.bind, adds] at done
  refine ⟨c, validated, ?_, ?_⟩
  · cases done
    rfl
  · unfold Index.clashesUID at uidFree
    split at uidFree
    · cases uidFree
    · assumption

theorem update_ok (consistent : s.Consistent) {name : String} {p : Persistent}
    (done : update name p upstreamsError s = .ok () next) :
    ∃ c stored, p.validate upstreamsError sortedTags = .ok c ∧
      s.index.findByName name = some (some stored) ∧
      s.index.uidToClient.get stored.uid = some stored ∧
      next = s.replaced stored { c with uid := stored.uid } := by
  obtain ⟨c, validated, done⟩ := check_ok done
  have done := read_ok done
  cases lookup : s.index.findByName name with
  | none =>
    simp only [lookup] at done
    cases done
  | some found =>
    obtain ⟨stored, rfl, present⟩ := consistent.findByName lookup
    simp only [lookup] at done
    obtain ⟨_, passed, done⟩ := check_ok done
    have free := (consistent.index.unclaimed passed).remove stored
    have removes : onIndex (Index.remove stored) s =
        .ok () ⟨s.index.removed stored, s.upstreamManager⟩ :=
      method_run (Index.remove_run (consistent.index.validMACs stored.uid stored present))
    have hasUID : ({ c with uid := stored.uid } : Persistent).uid ≠ 0 :=
      consistent.index.hasUID stored.uid stored present
    have adds : onIndex (Index.add { c with uid := stored.uid })
        ⟨s.index.removed stored, s.upstreamManager⟩ = .ok () _ :=
      method_run (Index.add_run hasUID free.validMACs)
    simp only [bind, EStateM.bind, removes, adds] at done
    refine ⟨c, stored, validated, rfl, present, ?_⟩
    cases done
    rfl

theorem removeByName_ok (consistent : s.Consistent) {name : String} {found : Bool}
    (done : removeByName name s = .ok found next) :
    found = false ∧ next = s ∨
      found = true ∧ ∃ stored, s.index.findByName name = some (some stored) ∧
        s.index.uidToClient.get stored.uid = some stored ∧ next = s.removed stored := by
  unfold removeByName at done
  have done := read_ok done
  cases lookup : s.index.findByName name with
  | none =>
    simp only [lookup] at done
    cases done
    exact .inl ⟨rfl, rfl⟩
  | some found =>
    obtain ⟨stored, rfl, present⟩ := consistent.findByName lookup
    have removes : onIndex (Index.remove stored) s =
        .ok () ⟨s.index.removed stored, s.upstreamManager⟩ :=
      method_run (Index.remove_run (consistent.index.validMACs stored.uid stored present))
    simp only [lookup, bind, EStateM.bind, removes] at done
    cases done
    exact .inr ⟨rfl, stored, rfl, present, rfl⟩

end Storage

def Call.client? : Call → Option Persistent
  | .add p _ => some p
  | .update _ p _ => some p
  | .removeByName _ => none

theorem Persistent.validate_ok {c valid : Persistent} {upstreamsError : Option String}
    {allTags : List String} (accepted : c.validate upstreamsError allTags = .ok valid) :
    valid = { c with tags := c.tags.mergeSort (· ≤ ·) } := by
  unfold validate at accepted
  split at accepted
  · cases accepted
  split at accepted
  · cases accepted
  split at accepted
  · cases accepted
  split at accepted
  · cases accepted
  split at accepted
  · cases accepted
  · exact (Except.ok.inj accepted).symm

namespace Storage

/-- Every client that is stored after a call was stored before, or is the one of the call. -/
theorem step_stored {s : Storage} (consistent : s.Consistent) (call : Call) {uid : UID}
    {c : Persistent} (stored : (machine.next s call).index.uidToClient.get uid = some c) :
    s.index.uidToClient.get uid = some c ∨
      ∃ p, call.client? = some p ∧ c = { p with tags := c.tags, uid := c.uid } := by
  by_cases failure : (machine.answer s call).isFailure = true
  · rw [(step_sound consistent call).2 failure] at stored
    exact .inl stored
  · cases call with
    | add p upstreamsError =>
      simp only [Transition.Machine.next, Transition.Machine.answer, machine, step] at failure stored
      cases done : add p upstreamsError s with
      | error error next => simp [done, Answer.isFailure] at failure
      | ok _ next =>
        rw [done] at stored
        obtain ⟨valid, validated, rfl, _⟩ := add_ok consistent done
        rcases FiniteMap.of_get_set stored with ⟨_, rfl⟩ | ⟨_, before⟩
        · obtain rfl := Persistent.validate_ok validated
          exact .inr ⟨p, rfl, rfl⟩
        · exact .inl before
    | update name p upstreamsError =>
      simp only [Transition.Machine.next, Transition.Machine.answer, machine, step] at failure stored
      cases done : update name p upstreamsError s with
      | error error next => simp [done, Answer.isFailure] at failure
      | ok _ next =>
        rw [done] at stored
        obtain ⟨valid, old, validated, _, _, rfl⟩ := update_ok consistent done
        rcases FiniteMap.of_get_set stored with ⟨_, rfl⟩ | ⟨_, before⟩
        · obtain rfl := Persistent.validate_ok validated
          exact .inr ⟨p, rfl, rfl⟩
        · exact .inl (FiniteMap.of_get_delete before).2
    | removeByName name =>
      simp only [Transition.Machine.next, Transition.Machine.answer, machine, step] at failure stored
      cases done : removeByName name s with
      | error error next => simp [done, Answer.isFailure] at failure
      | ok found next =>
        rw [done] at stored
        rcases removeByName_ok consistent done with ⟨_, rfl⟩ | ⟨_, old, _, _, rfl⟩
        · exact .inl stored
        · exact .inl (FiniteMap.of_get_delete stored).2

end Storage

open Netip Std

/-- The parsers with the functions that write identifiers, and `strings.ToLower`. -/
structure IDTexts extends Parsers where
  formatAddr : Addr → String
  formatPrefix : Prefix → String
  formatMAC : HardwareAddr → String
  toLower : String → String

/-- The errors of `setID`. -/
inductive IDError where
  | empty
  | badClientID (id : String)
deriving DecidableEq

/-- What a text is read as. -/
inductive Identifier where
  | ip (ip : Addr)
  | subnet (subnet : Prefix)
  | mac (mac : HardwareAddr)
  | clientID (clientID : ClientID)

namespace IDTexts

/-- The order of the attempts in `setID`. -/
def read (texts : IDTexts) (id : String) : Except IDError Identifier :=
  if id = "" then .error .empty
  else
    match texts.parseAddr id with
    | some ip => .ok (.ip ip)
    | none =>
      match texts.parsePrefix id with
      | some subnet => .ok (.subnet subnet)
      | none =>
        match texts.parseMAC id with
        | some mac => .ok (.mac mac)
        | none =>
          if texts.isValidClientID id then .ok (.clientID (texts.toLower id))
          else .error (.badClientID id)

end IDTexts

/-- `slices.Compare` on two link-layer addresses. -/
def macCompare : HardwareAddr → HardwareAddr → Ordering :=
  List.compareLex (compareOn BitVec.toNat)

instance : TransCmp macCompare := inferInstanceAs (TransCmp (List.compareLex _))

namespace Persistent

def append (c : Persistent) : Identifier → Persistent
  | .ip ip => { c with ips := c.ips ++ [ip] }
  | .subnet subnet => { c with subnets := c.subnets ++ [subnet] }
  | .mac mac => { c with macs := c.macs ++ [mac] }
  | .clientID clientID => { c with clientIDs := c.clientIDs ++ [clientID] }

/-- `Persistent.setID`. -/
def setID (texts : IDTexts) (c : Persistent) (id : String) : Except IDError Persistent :=
  match texts.read id with
  | .error error => .error error
  | .ok identifier => .ok (c.append identifier)

/-- The sorting at the end of `SetIDs`. -/
def sortIDs (c : Persistent) : Persistent :=
  { c with
    ips := c.ips.mergeSort fun a b => (Addr.compare a b).isLE
    subnets := c.subnets.mergeSort fun a b => (subnetCompare a b).isLE
    macs := c.macs.mergeSort fun a b => (macCompare a b).isLE
    clientIDs := c.clientIDs.mergeSort (· ≤ ·) }

/-- `Persistent.SetIDs`. -/
def setIDs (texts : IDTexts) (c : Persistent) (ids : List String) :
    Except IDError Persistent := do
  let c ← ids.foldlM (setID texts) c
  return c.sortIDs

/-- `Persistent.Identifiers`. -/
def identifiers (texts : IDTexts) (c : Persistent) : List String :=
  c.ips.map texts.formatAddr ++ c.subnets.map texts.formatPrefix ++ c.macs.map texts.formatMAC ++
    c.clientIDs

/-- `Persistent.EqualIDs`. -/
def equalIDs (c prev : Persistent) : Bool :=
  c.ips == prev.ips && c.subnets == prev.subnets && c.macs == prev.macs &&
    c.clientIDs == prev.clientIDs

def blank : Persistent := ⟨"", [], [], [], [], [], [], 0, 0, false, false, false⟩

theorem equalIDs_iff {c prev : Persistent} : c.equalIDs prev = true ↔
    c.ips = prev.ips ∧ c.subnets = prev.subnets ∧ c.macs = prev.macs ∧
      c.clientIDs = prev.clientIDs := by
  simp [equalIDs, and_assoc]

end Persistent

namespace Identifier

def ip? : Identifier → Option Addr
  | .ip addr => some addr
  | _ => none

def subnet? : Identifier → Option Prefix
  | .subnet pref => some pref
  | _ => none

def mac? : Identifier → Option HardwareAddr
  | .mac hw => some hw
  | _ => none

def clientID? : Identifier → Option ClientID
  | .clientID id => some id
  | _ => none

@[simp] theorem views_ip (addr : Addr) : (ip addr).ip? = some addr ∧ (ip addr).subnet? = none ∧
    (ip addr).mac? = none ∧ (ip addr).clientID? = none := ⟨rfl, rfl, rfl, rfl⟩

@[simp] theorem views_subnet (pref : Prefix) : (subnet pref).ip? = none ∧
    (subnet pref).subnet? = some pref ∧ (subnet pref).mac? = none ∧
    (subnet pref).clientID? = none := ⟨rfl, rfl, rfl, rfl⟩

@[simp] theorem views_mac (hw : HardwareAddr) : (mac hw).ip? = none ∧ (mac hw).subnet? = none ∧
    (mac hw).mac? = some hw ∧ (mac hw).clientID? = none := ⟨rfl, rfl, rfl, rfl⟩

@[simp] theorem views_clientID (id : ClientID) : (clientID id).ip? = none ∧
    (clientID id).subnet? = none ∧ (clientID id).mac? = none ∧
    (clientID id).clientID? = some id := ⟨rfl, rfl, rfl, rfl⟩

end Identifier

/-- What the documentation of the packages says about the texts. The text of an 8-byte link-layer
address, eight pairs of digits with colons, is that of an IPv6 address too. -/
structure IDTexts.Documented (texts : IDTexts) : Prop where
  empty : texts.parseAddr "" = none ∧ texts.parsePrefix "" = none ∧ texts.parseMAC "" = none ∧
    texts.isValidClientID "" = false
  addr : ∀ {id ip}, texts.parseAddr id = some ip →
    texts.parseAddr (texts.formatAddr ip) = some ip ∧ ip ≠ .zero
  subnet : ∀ {id subnet}, texts.parsePrefix id = some subnet →
    texts.parsePrefix (texts.formatPrefix subnet) = some subnet
  slash : ∀ {id subnet}, texts.parsePrefix id = some subnet →
    texts.parseAddr id = none ∧ texts.parseMAC id = none
  mac : ∀ {id mac}, texts.parseMAC id = some mac →
    texts.parseMAC (texts.formatMAC mac) = some mac ∧
      (mac.length = 6 ∨ mac.length = 8 ∨ mac.length = 20)
  colons : ∀ {id mac}, texts.parseMAC id = some mac →
    ((texts.parseAddr (texts.formatMAC mac)).isSome = true ↔ mac.length = 8)
  lower : ∀ {id}, texts.isValidClientID id = true →
    texts.isValidClientID (texts.toLower id) = true ∧
      (texts.parseAddr id = none → texts.parseAddr (texts.toLower id) = none) ∧
      (texts.parsePrefix id = none → texts.parsePrefix (texts.toLower id) = none) ∧
      (texts.parseMAC id = none → texts.parseMAC (texts.toLower id) = none)
  again : ∀ id, texts.toLower (texts.toLower id) = texts.toLower id

namespace Persistent

theorem foldl_append (kinds : List Identifier) (c : Persistent) :
    kinds.foldl append c = { c with
      ips := c.ips ++ kinds.filterMap Identifier.ip?
      subnets := c.subnets ++ kinds.filterMap Identifier.subnet?
      macs := c.macs ++ kinds.filterMap Identifier.mac?
      clientIDs := c.clientIDs ++ kinds.filterMap Identifier.clientID? } := by
  induction kinds generalizing c with
  | nil => simp
  | cons kind rest ih =>
    rw [List.foldl_cons, ih]
    cases kind <;> simp [append]

/-- The loop of `SetIDs` goes through just where all texts are read. -/
theorem foldlM_setID (texts : IDTexts) (ids : List String) (c d : Persistent) :
    ids.foldlM (setID texts) c = .ok d ↔
      ∃ kinds, List.Forall₂ (fun id kind => texts.read id = .ok kind) ids kinds ∧
        d = kinds.foldl append c := by
  induction ids generalizing c with
  | nil =>
    constructor
    · intro done
      exact ⟨[], .nil, (Except.ok.inj done).symm⟩
    · rintro ⟨kinds, all, rfl⟩
      cases all
      rfl
  | cons id rest ih =>
    rw [List.foldlM_cons]
    unfold setID
    cases reads : texts.read id with
    | error error =>
      constructor
      · intro done
        cases done
      · rintro ⟨kinds, all, rfl⟩
        cases all with
        | cons first _ => cases reads.symm.trans first
    | ok kind =>
      show List.foldlM (setID texts) (c.append kind) rest = .ok d ↔ _
      rw [ih]
      constructor
      · rintro ⟨kinds, all, rfl⟩
        exact ⟨kind :: kinds, .cons reads all, rfl⟩
      · rintro ⟨kinds, all, rfl⟩
        cases all with
        | cons first others =>
          obtain rfl := Except.ok.inj (reads.symm.trans first)
          exact ⟨_, others, rfl⟩

/-- The lists of identifiers of a client that was made from texts. -/
theorem setIDs_ok {texts : IDTexts} {ids : List String} {c : Persistent} :
    blank.setIDs texts ids = .ok c ↔
      ∃ kinds, List.Forall₂ (fun id kind => texts.read id = .ok kind) ids kinds ∧
        c = sortIDs { blank with
          ips := kinds.filterMap Identifier.ip?
          subnets := kinds.filterMap Identifier.subnet?
          macs := kinds.filterMap Identifier.mac?
          clientIDs := kinds.filterMap Identifier.clientID? } := by
  unfold setIDs
  constructor
  · intro done
    cases folded : ids.foldlM (setID texts) blank with
    | error error =>
      rw [folded] at done
      cases done
    | ok d =>
      rw [folded] at done
      obtain ⟨kinds, all, rfl⟩ := (foldlM_setID texts ids blank d).mp folded
      refine ⟨kinds, all, ?_⟩
      rw [← Except.ok.inj done, foldl_append]
      rfl
  · rintro ⟨kinds, all, rfl⟩
    have folded := (foldlM_setID texts ids blank _).mpr ⟨kinds, all, rfl⟩
    rw [folded, foldl_append]
    rfl

theorem setIDs_single {texts : IDTexts} {id : String} {kind : Identifier}
    (read : texts.read id = .ok kind) : blank.setIDs texts [id] = .ok (blank.append kind) := by
  rw [setIDs_ok]
  refine ⟨[kind], .cons read .nil, ?_⟩
  cases kind <;> simp [append, sortIDs, blank]

theorem sortIDs_sorted (c : Persistent) : c.sortIDs.sortIDs = c.sortIDs := by
  have sorted : ∀ {α : Type} (le : α → α → Bool),
      (∀ a b c, le a b = true → le b c = true → le a c = true) →
      (∀ a b, (le a b || le b a) = true) → ∀ l : List α,
      (l.mergeSort le).mergeSort le = l.mergeSort le :=
    fun le trans total l => List.mergeSort_of_pairwise (List.pairwise_mergeSort trans total l)
  have byCmp : ∀ {α : Type} (cmp : α → α → Ordering) [TransCmp cmp] (l : List α),
      (l.mergeSort fun a b => (cmp a b).isLE).mergeSort (fun a b => (cmp a b).isLE) =
        l.mergeSort fun a b => (cmp a b).isLE := by
    intro α cmp _ l
    apply sorted
    · exact fun a b c first second => TransCmp.isLE_trans first second
    · intro a b
      have swap : cmp b a = (cmp a b).swap := OrientedCmp.eq_swap
      rw [swap]
      cases cmp a b <;> rfl
  unfold sortIDs
  congr 1
  · exact byCmp Addr.compare _
  · exact byCmp subnetCompare _
  · exact byCmp macCompare _
  · apply sorted
    · intro a b c
      simpa using String.le_trans
    · intro a b
      simpa using String.le_total a b

end Persistent

open Netip

variable {texts : IDTexts}

/-- What the text of each kind of identifier is read as. -/
theorem IDTexts.read_ok {id : String} {kind : Identifier} (reads : texts.read id = .ok kind) :
    id ≠ "" ∧
      match kind with
      | .ip ip => texts.parseAddr id = some ip
      | .subnet subnet => texts.parseAddr id = none ∧ texts.parsePrefix id = some subnet
      | .mac mac =>
        texts.parseAddr id = none ∧ texts.parsePrefix id = none ∧ texts.parseMAC id = some mac
      | .clientID clientID =>
        texts.parseAddr id = none ∧ texts.parsePrefix id = none ∧ texts.parseMAC id = none ∧
          texts.isValidClientID id = true ∧ texts.toLower id = clientID := by
  unfold read at reads
  split at reads
  · cases reads
  rename_i filled
  refine ⟨filled, ?_⟩
  split at reads
  · rename_i ip parsed
    obtain rfl := Except.ok.inj reads
    exact parsed
  rename_i noAddr
  split at reads
  · rename_i subnet parsed
    obtain rfl := Except.ok.inj reads
    exact ⟨noAddr, parsed⟩
  rename_i noPrefix
  split at reads
  · rename_i mac parsed
    obtain rfl := Except.ok.inj reads
    exact ⟨noAddr, noPrefix, parsed⟩
  rename_i noMAC
  split at reads
  · rename_i valid
    obtain rfl := Except.ok.inj reads
    exact ⟨noAddr, noPrefix, noMAC, valid, rfl⟩
  · cases reads

/-- The identifiers of a client that `SetIDs` has set: each is what some text was read as. -/
structure Persistent.FromTexts (texts : IDTexts) (c : Persistent) : Prop where
  ips : ∀ ip ∈ c.ips, ∃ id, texts.read id = .ok (.ip ip)
  subnets : ∀ subnet ∈ c.subnets, ∃ id, texts.read id = .ok (.subnet subnet)
  macs : ∀ mac ∈ c.macs, ∃ id, texts.read id = .ok (.mac mac)
  clientIDs : ∀ clientID ∈ c.clientIDs, ∃ id, texts.read id = .ok (.clientID clientID)

namespace Persistent

theorem mem_sortIDs (c : Persistent) :
    (∀ ip, ip ∈ c.sortIDs.ips ↔ ip ∈ c.ips) ∧
      (∀ subnet, subnet ∈ c.sortIDs.subnets ↔ subnet ∈ c.subnets) ∧
      (∀ mac, mac ∈ c.sortIDs.macs ↔ mac ∈ c.macs) ∧
      ∀ clientID, clientID ∈ c.sortIDs.clientIDs ↔ clientID ∈ c.clientIDs :=
  ⟨fun _ => List.mem_mergeSort, fun _ => List.mem_mergeSort, fun _ => List.mem_mergeSort,
    fun _ => List.mem_mergeSort⟩

variable {c : Persistent} {ids : List String}

/-- Each identifier of the client is what one of the texts was read as, and the other way
around. -/
theorem mem_setIDs (accepted : blank.setIDs texts ids = .ok c) :
    (∀ ip, ip ∈ c.ips ↔ ∃ id ∈ ids, texts.read id = .ok (.ip ip)) ∧
      (∀ subnet, subnet ∈ c.subnets ↔ ∃ id ∈ ids, texts.read id = .ok (.subnet subnet)) ∧
      (∀ mac, mac ∈ c.macs ↔ ∃ id ∈ ids, texts.read id = .ok (.mac mac)) ∧
      ∀ clientID, clientID ∈ c.clientIDs ↔
        ∃ id ∈ ids, texts.read id = .ok (.clientID clientID) := by
  obtain ⟨kinds, all, rfl⟩ := setIDs_ok.mp accepted
  have among : ∀ kind, kind ∈ kinds ↔ ∃ id ∈ ids, texts.read id = .ok kind := by
    intro kind
    clear accepted
    induction all with
    | nil => simp
    | @cons id first ids kinds reads all ih =>
      simp only [List.mem_cons, ih, exists_eq_or_imp]
      rw [reads]
      simp [eq_comm]
  have viewed : ∀ {α : Type} {view : Identifier → Option α} {make : α → Identifier},
      (∀ kind a, view kind = some a ↔ kind = make a) →
      ∀ a, a ∈ kinds.filterMap view ↔ ∃ id ∈ ids, texts.read id = .ok (make a) := by
    intro α view make exactly a
    rw [← among, List.mem_filterMap]
    simp [exactly]
  have sorted := mem_sortIDs { blank with
    ips := kinds.filterMap Identifier.ip?
    subnets := kinds.filterMap Identifier.subnet?
    macs := kinds.filterMap Identifier.mac?
    clientIDs := kinds.filterMap Identifier.clientID? }
  refine ⟨fun ip => (sorted.1 ip).trans (viewed ?_ ip), fun subnet =>
    (sorted.2.1 subnet).trans (viewed ?_ subnet), fun mac => (sorted.2.2.1 mac).trans
    (viewed ?_ mac), fun clientID => (sorted.2.2.2 clientID).trans (viewed ?_ clientID)⟩
  · intro kind ip
    cases kind <;> simp [Identifier.ip?]
  · intro kind subnet
    cases kind <;> simp [Identifier.subnet?]
  · intro kind mac
    cases kind <;> simp [Identifier.mac?]
  · intro kind clientID
    cases kind <;> simp [Identifier.clientID?]

theorem exists_read (accepted : blank.setIDs texts ids = .ok c) {id : String} (member : id ∈ ids) :
    ∃ kind, texts.read id = .ok kind := by
  obtain ⟨kinds, all, rfl⟩ := setIDs_ok.mp accepted
  clear accepted
  induction all with
  | nil => exact absurd member List.not_mem_nil
  | cons first _ ih =>
    rcases List.mem_cons.mp member with rfl | later
    · exact ⟨_, first⟩
    · exact ih later

theorem fromTexts (accepted : blank.setIDs texts ids = .ok c) : c.FromTexts texts := by
  obtain ⟨ips, subnets, macs, clientIDs⟩ := mem_setIDs accepted
  constructor
  · intro ip member
    obtain ⟨id, _, reads⟩ := (ips ip).mp member
    exact ⟨id, reads⟩
  · intro subnet member
    obtain ⟨id, _, reads⟩ := (subnets subnet).mp member
    exact ⟨id, reads⟩
  · intro mac member
    obtain ⟨id, _, reads⟩ := (macs mac).mp member
    exact ⟨id, reads⟩
  · intro clientID member
    obtain ⟨id, _, reads⟩ := (clientIDs clientID).mp member
    exact ⟨id, reads⟩

def rereadMAC (texts : IDTexts) (mac : HardwareAddr) : Identifier :=
  match texts.parseAddr (texts.formatMAC mac) with
  | some ip => .ip ip
  | none => .mac mac

/-- Every written identifier but an 8-byte link-layer address is read as what it was. -/
theorem FromTexts.reread (documented : texts.Documented) (made : c.FromTexts texts) :
    List.Forall₂ (fun id kind => texts.read id = .ok kind) (c.identifiers texts)
      (c.ips.map .ip ++ c.subnets.map .subnet ++ c.macs.map (rereadMAC texts) ++
        c.clientIDs.map .clientID) := by
  obtain ⟨noAddr, noPrefix, noMAC, invalid⟩ := documented.empty
  have each : ∀ {α : Type} (l : List α) (format : α → String) (make : α → Identifier),
      (∀ a ∈ l, texts.read (format a) = .ok (make a)) →
      List.Forall₂ (fun id kind => texts.read id = .ok kind) (l.map format) (l.map make) := by
    intro α l format make reads
    rw [List.forall₂_map_left_iff, List.forall₂_map_right_iff, List.forall₂_same]
    exact reads
  have own : List.Forall₂ (fun id kind => texts.read id = .ok kind) c.clientIDs
      (c.clientIDs.map .clientID) := by
    have same := each c.clientIDs id .clientID ?_
    · rwa [List.map_id] at same
    intro clientID member
    obtain ⟨id, reads⟩ := made.clientIDs clientID member
    obtain ⟨_, addr, pref, mac, valid, rfl⟩ := IDTexts.read_ok reads
    obtain ⟨stillValid, stillNoAddr, stillNoPrefix, stillNoMAC⟩ := documented.lower valid
    have filled : texts.toLower id ≠ "" := by
      intro nothing
      rw [nothing, invalid] at stillValid
      cases stillValid
    simp [IDTexts.read, filled, stillNoAddr addr, stillNoPrefix pref, stillNoMAC mac, stillValid,
      documented.again]
  refine List.rel_append (List.rel_append (List.rel_append (each _ _ _ ?_) (each _ _ _ ?_))
    (each _ _ _ ?_)) own
  · intro ip member
    obtain ⟨id, reads⟩ := made.ips ip member
    have back := (documented.addr (IDTexts.read_ok reads).2).1
    have filled : texts.formatAddr ip ≠ "" := by
      intro nothing
      rw [nothing, noAddr] at back
      cases back
    simp [IDTexts.read, filled, back]
  · intro subnet member
    obtain ⟨id, reads⟩ := made.subnets subnet member
    have back := documented.subnet (IDTexts.read_ok reads).2.2
    have filled : texts.formatPrefix subnet ≠ "" := by
      intro nothing
      rw [nothing, noPrefix] at back
      cases back
    simp [IDTexts.read, filled, (documented.slash back).1, back]
  · intro mac member
    obtain ⟨id, reads⟩ := made.macs mac member
    have back := (documented.mac (IDTexts.read_ok reads).2.2.2).1
    have filled : texts.formatMAC mac ≠ "" := by
      intro nothing
      rw [nothing, noMAC] at back
      cases back
    have noSlash : texts.parsePrefix (texts.formatMAC mac) = none := by
      cases parsed : texts.parsePrefix (texts.formatMAC mac) with
      | none => rfl
      | some subnet =>
        rw [(documented.slash parsed).2] at back
        cases back
    unfold rereadMAC
    cases parsed : texts.parseAddr (texts.formatMAC mac) with
    | some ip => simp [IDTexts.read, filled, parsed]
    | none => simp [IDTexts.read, filled, parsed, noSlash, back]

/-- Setting the written identifiers gives the same ones just where no link-layer address has
8 bytes. -/
theorem reset_iff (documented : texts.Documented) (accepted : blank.setIDs texts ids = .ok c) :
    (∃ d, blank.setIDs texts (c.identifiers texts) = .ok d ∧ d.equalIDs c = true) ↔
      ∀ mac ∈ c.macs, mac.length ≠ 8 := by
  have made := fromTexts accepted
  have reread := made.reread documented
  have sorted : c.sortIDs = c := by
    obtain ⟨kinds, _, rfl⟩ := setIDs_ok.mp accepted
    exact sortIDs_sorted _
  have eight : ∀ mac ∈ c.macs,
      ((texts.parseAddr (texts.formatMAC mac)).isSome = true ↔ mac.length = 8) := by
    intro mac member
    obtain ⟨id, reads⟩ := made.macs mac member
    exact documented.colons (IDTexts.read_ok reads).2.2.2
  have other : ∀ mac, (rereadMAC texts mac).subnet? = none ∧
      (rereadMAC texts mac).clientID? = none := by
    intro mac
    unfold rereadMAC
    cases texts.parseAddr (texts.formatMAC mac) <;> exact ⟨rfl, rfl⟩
  have again : blank.setIDs texts (c.identifiers texts) = .ok (sortIDs { blank with
      ips := c.ips ++ c.macs.filterMap fun mac => (rereadMAC texts mac).ip?
      subnets := c.subnets
      macs := c.macs.filterMap fun mac => (rereadMAC texts mac).mac?
      clientIDs := c.clientIDs }) := by
    refine setIDs_ok.mpr ⟨_, reread, ?_⟩
    simp [List.filterMap_append, List.filterMap_map, other]
  rw [again]
  constructor
  · rintro ⟨d, done, equal⟩ mac member long
    obtain rfl := Except.ok.inj done
    have ips := congrArg List.length (equalIDs_iff.mp equal).1
    have none_added : (c.macs.filterMap fun mac => (rereadMAC texts mac).ip?) = [] := by
      rw [← List.length_eq_zero_iff]
      simpa [sortIDs] using ips
    have missing := List.filterMap_eq_nil_iff.mp none_added mac member
    obtain ⟨ip, parsed⟩ := Option.isSome_iff_exists.mp ((eight mac member).mpr long)
    simp [rereadMAC, parsed] at missing
  · intro short
    have plain : ∀ mac ∈ c.macs, rereadMAC texts mac = .mac mac := by
      intro mac member
      have noAddr : texts.parseAddr (texts.formatMAC mac) = none := by
        rw [← Option.not_isSome_iff_eq_none, eight mac member]
        exact short mac member
      simp [rereadMAC, noAddr]
    have ips : (c.macs.filterMap fun mac => (rereadMAC texts mac).ip?) = [] :=
      List.filterMap_eq_nil_iff.mpr fun mac member => by rw [plain mac member]; rfl
    have macs : (c.macs.filterMap fun mac => (rereadMAC texts mac).mac?) = c.macs := by
      have same : (c.macs.filterMap fun mac => (rereadMAC texts mac).mac?) =
          c.macs.filterMap some :=
        List.filterMap_congr fun mac member => by rw [plain mac member]; rfl
      rw [same, List.filterMap_some]
    have kept := equalIDs_iff.mp (show c.sortIDs.equalIDs c = true by simp [sorted, equalIDs_iff])
    refine ⟨_, rfl, equalIDs_iff.mpr ?_⟩
    rw [ips, macs, List.append_nil]
    exact kept

theorem FromTexts.congr {c prev : Persistent} (same : c.equalIDs prev = true)
    (made : prev.FromTexts texts) : c.FromTexts texts := by
  obtain ⟨ips, subnets, macs, clientIDs⟩ := equalIDs_iff.mp same
  constructor
  · rw [ips]
    exact made.ips
  · rw [subnets]
    exact made.subnets
  · rw [macs]
    exact made.macs
  · rw [clientIDs]
    exact made.clientIDs

end Persistent

def sampleSubnet : Prefix := ⟨.v4 0xC0000200, 24, rfl⟩

/-- Texts of one address, one subnet, one link-layer address and some ClientIDs. -/
def sampleTexts : IDTexts where
  parseAddr id := if id = "192.0.2.1" then some (.v4 0xC0000201) else none
  parsePrefix id := if id = "192.0.2.0/24" then some sampleSubnet else none
  parseMAC id := if id = "00:00:5e:00:53:01" then some [0x00, 0x00, 0x5e, 0x00, 0x53, 0x01] else none
  isValidClientID id := id = "tablet" ∨ id = "phone"
  formatAddr _ := "192.0.2.1"
  formatPrefix _ := "192.0.2.0/24"
  formatMAC _ := "00:00:5e:00:53:01"
  toLower id := id

private theorem eq_of_ite {α : Type} {id text : String} {value found : α}
    (parsed : (if id = text then some value else none) = some found) : id = text ∧ value = found := by
  split at parsed
  · exact ⟨‹_›, Option.some.inj parsed⟩
  · cases parsed

theorem documented_sampleTexts : sampleTexts.Documented where
  empty := by decide
  addr parsed := by
    obtain ⟨rfl, rfl⟩ := eq_of_ite parsed
    decide
  subnet parsed := by
    obtain ⟨rfl, rfl⟩ := eq_of_ite parsed
    decide
  slash parsed := by
    obtain ⟨rfl, rfl⟩ := eq_of_ite parsed
    decide
  mac parsed := by
    obtain ⟨rfl, rfl⟩ := eq_of_ite parsed
    decide
  colons parsed := by
    obtain ⟨rfl, rfl⟩ := eq_of_ite parsed
    decide
  lower valid := ⟨valid, id, id, id⟩
  again _ := rfl

namespace Storage

/-- The client that the call brings has identifiers that `SetIDs` has set. -/
def ParsedCall (texts : IDTexts) (_ : Storage) (call : Call) : Prop :=
  ∀ p, call.client? = some p →
    ∃ ids c, Persistent.blank.setIDs texts ids = .ok c ∧ p.equalIDs c = true

/-- The indexes are consistent, and all identifiers have been read from texts. -/
structure Parsed (texts : IDTexts) (s : Storage) : Prop where
  consistent : s.Consistent
  made : ∀ uid c, s.index.uidToClient.get uid = some c → c.FromTexts texts

theorem parsed_new : Parsed texts new := ⟨Consistent.empty, fun _ _ found => by cases found⟩

theorem Parsed.next {s : Storage} (parsed : s.Parsed texts) {call : Call}
    (calls : ParsedCall texts s call) : (machine.next s call).Parsed texts where
  consistent := (step_sound parsed.consistent call).1
  made uid c stored := by
    rcases step_stored parsed.consistent call stored with before | ⟨p, brought, same⟩
    · exact parsed.made uid c before
    · obtain ⟨ids, d, accepted, equal⟩ := calls p brought
      have kept : c.equalIDs p = true := by
        rw [same]
        simp [Persistent.equalIDs]
      exact ((Persistent.fromTexts accepted).congr equal).congr kept

theorem parsed_run {calls : List Call} (parsed : machine.Allowed (ParsedCall texts) new calls) :
    (machine.run new calls).Parsed texts :=
  machine.run_invariant (Parsed texts) (fun _ _ before call => before.next call) parsed_new parsed

variable {s : Storage} {uid : UID} {c : Persistent}

theorem Consistent.findByClientID (consistent : s.Consistent)
    (stored : s.index.uidToClient.get uid = some c) {id : ClientID} (lists : id ∈ c.clientIDs) :
    s.index.findByClientID id = some c := by
  have found := (consistent.index.clientIDs id uid).mpr ⟨c, stored, lists⟩
  simp [Index.findByClientID, Index.clientOf, found, stored]

theorem Consistent.findByIP (consistent : s.Consistent)
    (stored : s.index.uidToClient.get uid = some c) {ip : Addr} (lists : ip ∈ c.ips) :
    s.index.findByIP ip = some c := by
  have found := (consistent.index.ips ip uid).mpr ⟨c, stored, lists⟩
  simp [Index.findByIP, Index.clientOf, found, stored]

theorem Consistent.findByCIDR (consistent : s.Consistent)
    (stored : s.index.uidToClient.get uid = some c) {subnet : Prefix} (lists : subnet ∈ c.subnets) :
    s.index.findByCIDR subnet = some c := by
  have found := (consistent.index.subnets subnet uid).mpr ⟨c, stored, lists⟩
  simp [Index.findByCIDR, Index.clientOf, Aghalg.SortedMap.find_entries, found, stored]

theorem Consistent.findByMAC (consistent : s.Consistent)
    (stored : s.index.uidToClient.get uid = some c) {mac : HardwareAddr} (lists : mac ∈ c.macs) :
    s.index.findByMAC mac = some c := by
  obtain ⟨key, valid⟩ :=
    Option.isSome_iff_exists.mp (consistent.index.validMACs uid c stored mac lists)
  obtain rfl := macToKey_eq_some.mp valid
  have found := (consistent.index.macs key uid).mpr
    ⟨c, stored, Persistent.mem_macKeys.mpr lists⟩
  simp [Index.findByMAC, Index.clientOf, found, stored]

theorem Consistent.of_findByClientID (consistent : s.Consistent) {id : ClientID}
    (found : s.index.findByClientID id = some c) :
    ∃ uid, s.index.uidToClient.get uid = some c ∧ id ∈ c.clientIDs := by
  unfold Index.findByClientID Index.clientOf at found
  obtain ⟨uid, known, stored⟩ := Option.bind_eq_some_iff.mp found
  obtain ⟨row, present, lists⟩ := (consistent.index.clientIDs id uid).mp known
  obtain rfl := Option.some.inj (present.symm.trans stored)
  exact ⟨uid, stored, lists⟩

/-- Each of the texts finds the client, except for ClientIDs with capitals. -/
theorem Parsed.find_iff (documented : texts.Documented) (parsed : s.Parsed texts) (dhcp : DHCP)
    {ids : List String} {made : Persistent}
    (accepted : Persistent.blank.setIDs texts ids = .ok made)
    (stored : s.index.uidToClient.get uid = some c) (same : c.equalIDs made = true) :
    (∀ id ∈ ids, ∃ params, FindParams.set texts.toParsers id = some params ∧
        s.find dhcp params = some c) ↔
      ∀ id ∈ ids, ∀ clientID, texts.read id = .ok (.clientID clientID) →
        texts.toLower id = id := by
  have consistent := parsed.consistent
  obtain ⟨ips, subnets, macs, clientIDs⟩ := Persistent.mem_setIDs accepted
  obtain ⟨sameIPs, sameSubnets, sameMACs, sameClientIDs⟩ := Persistent.equalIDs_iff.mp same
  refine forall₂_congr fun id member => ?_
  obtain ⟨kind, read⟩ := Persistent.exists_read accepted member
  obtain ⟨filled, texted⟩ := IDTexts.read_ok read
  cases kind with
  | ip ip =>
    have found := consistent.findByIP stored (sameIPs ▸ (ips ip).mpr ⟨id, member, read⟩)
    refine iff_of_true ⟨⟨none, some ip, none, texts.parseMAC id⟩, ?_, ?_⟩ ?_
    · simp only [FindParams.set, texted]
    · simp [find, findByIP, found]
    · rw [read]
      exact fun _ other => by cases other
  | subnet subnet =>
    have found := consistent.findByCIDR stored
      (sameSubnets ▸ (subnets subnet).mpr ⟨id, member, read⟩)
    obtain ⟨noAddr, parsed⟩ := texted
    refine iff_of_true ⟨⟨none, none, some subnet, none⟩, ?_, ?_⟩ ?_
    · simp only [FindParams.set, noAddr, (documented.slash parsed).2, parsed]
    · simp [find, found]
    · rw [read]
      exact fun _ other => by cases other
  | mac mac =>
    have found := consistent.findByMAC stored (sameMACs ▸ (macs mac).mpr ⟨id, member, read⟩)
    obtain ⟨noAddr, _, parsed⟩ := texted
    refine iff_of_true ⟨⟨none, none, none, some mac⟩, ?_, ?_⟩ ?_
    · simp only [FindParams.set, noAddr, parsed]
    · simp [find, found]
    · rw [read]
      exact fun _ other => by cases other
  | clientID clientID =>
    obtain ⟨noAddr, noPrefix, noMAC, valid, rfl⟩ := texted
    have params : FindParams.set texts.toParsers id = some ⟨some id, none, none, none⟩ := by
      simp only [FindParams.set, noAddr, noPrefix, noMAC, valid, if_true]
    have search : s.find dhcp ⟨some id, none, none, none⟩ = s.index.findByClientID id := by
      simp [find]
    constructor
    · rintro ⟨_, set, finds⟩ _ _
      obtain rfl := Option.some.inj (params.symm.trans set)
      rw [search] at finds
      -- whoever lists the text has it from `strings.ToLower`
      obtain ⟨owner, present, lists⟩ := consistent.of_findByClientID finds
      obtain ⟨text, wrote⟩ := (parsed.made owner c present).clientIDs id lists
      obtain ⟨_, _, _, _, _, rfl⟩ := IDTexts.read_ok wrote
      exact documented.again text
    · intro lower
      have low := lower _ read
      have lists : id ∈ c.clientIDs := by
        have own := (clientIDs (texts.toLower id)).mpr ⟨id, member, read⟩
        rwa [low, ← sameClientIDs] at own
      exact ⟨_, params, search.trans (consistent.findByClientID stored lists)⟩

/-- The identifiers are the same when they are set again, and find the client that is stored with
them, just where no link-layer address has 8 bytes and no ClientID has capitals. -/
theorem identifiers_round_trip (documented : texts.Documented) (ids : List String)
    (made : Persistent) (accepted : Persistent.blank.setIDs texts ids = .ok made) (dhcp : DHCP)
    (calls : List Call) (parsed : machine.Allowed (ParsedCall texts) new calls) (uid : UID)
    (c : Persistent) (stored : (machine.run new calls).index.uidToClient.get uid = some c)
    (same : c.equalIDs made = true) :
    ((∃ again, Persistent.blank.setIDs texts (made.identifiers texts) = .ok again ∧
          again.equalIDs made = true) ∧
        ∀ id ∈ ids, ∃ params, FindParams.set texts.toParsers id = some params ∧
          (machine.run new calls).find dhcp params = some c) ↔
      (∀ mac ∈ made.macs, mac.length ≠ 8) ∧
        ∀ id ∈ ids, ∀ clientID, texts.read id = .ok (.clientID clientID) →
          texts.toLower id = id :=
  and_congr (Persistent.reset_iff documented accepted)
    ((parsed_run parsed).find_iff documented dhcp accepted stored same)

/-- Some texts: those of a ClientID, and of a link-layer address that has 8 bytes. -/
private def dotted : String := "0200.5e10.0000.0001"

private def colons : String := "02:00:5e:10:00:00:00:01"

private def infiniband : HardwareAddr := [0x02, 0x00, 0x5e, 0x10, 0x00, 0x00, 0x00, 0x01]

private def likeInfiniband : Addr := .v6 0x0002_0000_005e_0010_0000_0000_0000_0001 ""

private def fewTexts : IDTexts where
  parseAddr id := if id = colons ∨ id = "2:0:5e:10::1" then some likeInfiniband else none
  parsePrefix _ := none
  parseMAC id := if id = dotted ∨ id = colons then some infiniband else none
  isValidClientID id := id = "Phone" ∨ id = "phone"
  formatAddr _ := "2:0:5e:10::1"
  formatPrefix _ := "192.0.2.0/24"
  formatMAC _ := colons
  toLower id := if id = "Phone" then "phone" else id

private theorem infiniband_only {id : String} {mac : HardwareAddr}
    (parsed : fewTexts.parseMAC id = some mac) : mac = infiniband := by
  simp only [fewTexts] at parsed
  split at parsed
  · exact (Option.some.inj parsed).symm
  · cases parsed

private theorem documented_fewTexts : fewTexts.Documented where
  empty := by decide
  addr := by
    intro id ip parsed
    have is : ip = likeInfiniband := by
      simp only [fewTexts] at parsed
      split at parsed
      · exact (Option.some.inj parsed).symm
      · cases parsed
    rw [is]
    decide
  subnet parsed := by cases parsed
  slash parsed := by cases parsed
  mac parsed := by
    rw [infiniband_only parsed]
    decide
  colons parsed := by
    rw [infiniband_only parsed]
    decide
  lower := by
    intro id valid
    have is : id = "Phone" ∨ id = "phone" := by simpa [fewTexts] using valid
    rcases is with rfl | rfl <;> decide
  again id := by
    simp only [fewTexts]
    split
    · decide
    · rfl

private def phone : Persistent := { Persistent.blank with clientIDs := ["phone"] }

private def addPhone : List Call := [.add { phone with name := "Phone", uid := 1 } none]

private theorem accepted_phone (id : String) (phones : id = "Phone" ∨ id = "phone") :
    Persistent.blank.setIDs fewTexts [id] = .ok phone :=
  @Persistent.setIDs_single _ _ (.clientID "phone") (by rcases phones with rfl | rfl <;> rfl)

private def noDHCP : DHCP := ⟨fun _ => "", fun _ => none⟩

private theorem parsed_addPhone : machine.Allowed (ParsedCall fewTexts) new addPhone := by
  refine ⟨fun p brought => ?_, trivial⟩
  obtain rfl := Option.some.inj brought
  exact ⟨["phone"], phone, accepted_phone "phone" (.inr rfl), by decide⟩

private theorem stored_addPhone :
    (machine.run new addPhone).index.uidToClient.get 1 =
      some { phone with name := "Phone", uid := 1 } := by
  decide +kernel

theorem identifiers_round_trip_phone :
    (∃ again, Persistent.blank.setIDs fewTexts (phone.identifiers fewTexts) = .ok again ∧
        again.equalIDs phone = true) ∧
      ∀ id ∈ ["phone"], ∃ params, FindParams.set fewTexts.toParsers id = some params ∧
        (machine.run new addPhone).find noDHCP params =
          some { phone with name := "Phone", uid := 1 } := by
  refine (identifiers_round_trip documented_fewTexts ["phone"] phone
    (accepted_phone "phone" (.inr rfl)) noDHCP addPhone parsed_addPhone 1 _ stored_addPhone
    (by decide)).mpr ⟨fun mac member => absurd member List.not_mem_nil, ?_⟩
  intro id member _ _
  obtain rfl := List.mem_singleton.mp member
  rfl

/-- The client that was stored under a ClientID with a capital is not found under it, and an
8-byte link-layer address is read again as an IPv6 address. -/
theorem identifiers_lost :
    Persistent.blank.setIDs fewTexts ["Phone"] = .ok phone ∧
      (machine.run new addPhone).index.uidToClient.get 1 =
        some { phone with name := "Phone", uid := 1 } ∧
      (∀ params, FindParams.set fewTexts.toParsers "Phone" = some params →
        (machine.run new addPhone).find noDHCP params = none) ∧
      fewTexts.read dotted = .ok (.mac infiniband) ∧
      fewTexts.read (fewTexts.formatMAC infiniband) = .ok (.ip likeInfiniband) := by
  refine ⟨accepted_phone "Phone" (.inl rfl), stored_addPhone, fun params set => ?_, rfl, rfl⟩
  obtain rfl := Option.some.inj set
  decide +kernel

end Storage

end AdGuardHome.Client
