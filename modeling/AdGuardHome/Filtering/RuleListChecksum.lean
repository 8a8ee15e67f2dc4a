import AdGuardHome.Filtering.RuleListNormal
import AdGuardHome.Filtering.ListIDs

namespace AdGuardHome.Filtering

open Strings

namespace RuleList

theorem crcUpdate_append (crc : BitVec 32) (first second : Bytes) :
    crcUpdate (crcUpdate crc first) second = crcUpdate crc (first ++ second) := by
  simp [crcUpdate]

theorem crcUpdate_nil (crc : BitVec 32) : crcUpdate crc [] = crc := by simp [crcUpdate]

theorem foldl_crcUpdate (crc : BitVec 32) (rules : List Bytes) :
    rules.foldl crcUpdate crc = crcUpdate crc rules.flatten := by
  induction rules generalizing crc with
  | nil => exact (crcUpdate_nil crc).symm
  | cons rule rest ih => rw [List.foldl_cons, ih, crcUpdate_append, List.flatten_cons]

namespace Parser

def rules (p : Parser) : List Bytes := scanLines p.dst

def summed (p : Parser) : Bytes := p.rules.flatten

end Parser

theorem Normal.rules {p : Parser} {rules : List Bytes} (normal : Normal p rules) :
    p.rules = rules := by
  rw [Parser.rules, normal.dst]
  exact scanLines_join fun rule member => (normal.rule rule member).oneLine

theorem checksum_eq {src : Bytes} {p : Parser} (parsed : parse src = .ok p) :
    p.checksum = crcUpdate 0 p.summed := by
  obtain ⟨rules, normal⟩ := parse_normal parsed
  rw [normal.checksum, foldl_crcUpdate, Parser.summed, normal.rules]

end RuleList

open RuleList

/-- Changes from one contents to another are detected: by the checksums, and by the update
of a list with the old ones, which stores the new ones if the rules differ. -/
structure Detects (old new : Parser) (src : Bytes) : Prop where
  checksums : old.checksum = new.checksum ↔ old.rules = new.rules
  stores : ∀ (disk : Disk) (flt : FilterYAML) (d : Download),
    flt.checksum = old.checksum → d.pending = true → d.body = some src → d.replace = true →
      (updateIntl disk flt d).updated = decide (old.rules ≠ new.rules) ∧
        (updateIntl disk flt d).disk =
          if old.rules = new.rules then disk else disk.set flt.id new.dst

/-- An update compares the checksums. -/
theorem updateIntl_stores {src : Bytes} {new : Parser} (parsed : parse src = .ok new) (disk : Disk)
    (flt : FilterYAML) {d : Download} (pending : d.pending = true) (body : d.body = some src)
    (replace : d.replace = true) :
    (updateIntl disk flt d).updated = decide (flt.checksum ≠ new.checksum) ∧
      (updateIntl disk flt d).disk =
        if flt.checksum = new.checksum then disk else disk.set flt.id new.dst := by
  simp only [updateIntl, pending, body, parsed, replace, Bool.not_true, Bool.false_eq_true,
    ↓reduceIte]
  by_cases same : new.checksum = flt.checksum
  · simp [same]
  · simp [same, Ne.symm same]

/-- With no collision between the two sums, changes are detected iff other rules are never
the same bytes one after the other. -/
theorem detects_iff {src₁ src₂ : Bytes} {old new : Parser} (oldParsed : parse src₁ = .ok old)
    (newParsed : parse src₂ = .ok new)
    (injective : crcUpdate 0 old.summed = crcUpdate 0 new.summed → old.summed = new.summed) :
    Detects old new src₂ ↔ (old.rules.flatten = new.rules.flatten → old.rules = new.rules) := by
  have sums : old.checksum = new.checksum ↔ old.summed = new.summed := by
    rw [checksum_eq oldParsed, checksum_eq newParsed]
    exact ⟨injective, congrArg (crcUpdate 0)⟩
  constructor
  · intro detects same
    exact detects.checksums.mp (sums.mpr same)
  · intro decodable
    have checksums : old.checksum = new.checksum ↔ old.rules = new.rules :=
      ⟨fun same => decodable (sums.mp same), fun same => sums.mpr (congrArg List.flatten same)⟩
    refine ⟨checksums, ?_⟩
    intro disk flt d stored pending body replace
    have updates := updateIntl_stores newParsed disk flt pending body replace
    simpa only [stored, ne_eq, checksums] using updates

/-- Rules of different bytes. -/
theorem detects_changed_rule :
    Detects ⟨[], 1, 2, crcUpdate 0 (lit "a"), false, lit "a\n"⟩
      ⟨[], 1, 2, crcUpdate 0 (lit "b"), false, lit "b\n"⟩ (lit "b\n") := by
  have parsed : parse (lit "a\n") = .ok ⟨[], 1, 2, crcUpdate 0 (lit "a"), false, lit "a\n"⟩ := by
    decide +kernel
  exact (detects_iff parsed (by decide +kernel) (by decide +kernel)).mpr (by decide +kernel)

/-- One rule and its two halves have one checksum, of the same bytes, and a list that is
split so is not stored. -/
theorem split_rule_is_not_detected :
    let sum := crcUpdate 0 (lit "ab")
    let old : Parser := ⟨[], 1, 3, sum, false, lit "ab\n"⟩
    let new : Parser := ⟨[], 2, 4, sum, false, lit "a\nb\n"⟩
    let flt : FilterYAML := ⟨true, lit "u", lit "n", 1, 0, sum, false, 1⟩
    let disk : Disk := FiniteMap.set ∅ 1 (lit "ab\n")
    let u := updateIntl disk flt ⟨true, some (lit "a\nb\n"), true, true, 5⟩
    parse (lit "ab\n") = .ok old ∧ parse (lit "a\nb\n") = .ok new ∧
      old.summed = new.summed ∧ old.rules = [lit "ab"] ∧ new.rules = [lit "a", lit "b"] ∧
      (u.updated = false ∧ u.err = none ∧ u.disk.get 1 = some (lit "ab\n")) ∧
      ¬ Detects old new (lit "a\nb\n") := by
  refine ⟨by decide +kernel, by decide +kernel, by decide +kernel, by decide +kernel,
    by decide +kernel, by decide +kernel, ?_⟩
  intro detects
  have same := detects.checksums.mp rfl
  revert same
  decide +kernel

end AdGuardHome.Filtering

namespace AdGuardHome.Filtering.RuleList

open Strings

/-- What `bufio.ScanLines` finds in the unread bytes, with its carriage return. -/
def firstLine (data : Bytes) : Bytes := data.takeWhile (· != 10)

def trimOffset (line : Bytes) : Nat := line.length - (trimSpace.trimLeft line.length line).length

/-- `append(trimmed, '\n')`. A trimmed line at the end of the data has its newline behind it. -/
def appendNewline (data line : Bytes) : Bytes :=
  data.set (trimOffset line + (trimSpace line).length) 10

/-- What is unread after a line, with or without a newline written. -/
def unread (wrote : Bool) (data token : Bytes) : Bytes :=
  (if wrote then appendNewline data (trimSuffix token [13]) else data).drop (token.length + 1)

theorem length_unread (wrote : Bool) (data token : Bytes) :
    (unread wrote data token).length = data.length - (token.length + 1) := by
  cases wrote <;> simp [unread, appendNewline]

/-- The loop of `Parser.Parse` on the unread bytes. -/
def parseBuffer (p : Parser) (lineNum : Nat) (data : Bytes) : Except ParseError Parser :=
  if data = [] then .ok p
  else
    let token := firstLine data
    if maxScanTokenSize ≤ token.length then .error .tooLong
    else
      match processLine p (trimSuffix token [13]) lineNum with
      | .error err => .error err
      | .ok after =>
        parseBuffer after (lineNum + 1) (unread (after.rulesCount != p.rulesCount) data token)
termination_by data.length
decreasing_by
  have some := List.length_pos_of_ne_nil ‹¬ data = []›
  rw [length_unread]
  omega

theorem prefix_trimSuffix (s suffix : Bytes) : trimSuffix s suffix <+: s := by
  unfold trimSuffix
  split
  · exact List.take_prefix _ _
  · exact List.prefix_refl _

theorem trimOffset_add_le (line : Bytes) :
    trimOffset line + (trimSpace line).length ≤ line.length := by
  have left := (trimSpace.trimLeft_suffix line.length line).length_le
  have right := (trimSpace.trimRight_prefix line.length (trimSpace.trimLeft line.length line)).length_le
  simp only [trimOffset, trimSpace]
  omega

theorem unread_eq (wrote : Bool) (data token : Bytes) :
    unread wrote data token = data.drop (token.length + 1) := by
  cases wrote with
  | false => rfl
  | true =>
    have inside := trimOffset_add_le (trimSuffix token [13])
    have shorter := (prefix_trimSuffix token [13]).length_le
    exact (List.drop_set ..).trans (if_pos (by omega))

theorem scanLines_nil : scanLines [] = [] := rfl

theorem scanLines_eq_cons {data : Bytes} (some : data ≠ []) :
    scanLines data = firstLine data :: scanLines (data.drop ((firstLine data).length + 1)) := by
  have clean : 10 ∉ firstLine data := by
    intro newline
    have different : (firstLine data).all (· != 10) = true := List.all_takeWhile
    simpa using List.all_eq_true.mp different 10 newline
  have whole : firstLine data ++ data.dropWhile (· != 10) = data := List.takeWhile_append_dropWhile
  cases rest : data.dropWhile (· != 10) with
  | nil =>
    rw [rest, List.append_nil] at whole
    have one : data.splitOn 10 = [data] := List.splitOn_eq_singleton (whole ▸ clean)
    rw [whole, List.drop_eq_nil_of_le (Nat.le_succ _), scanLines_nil, scanLines, one]
    simp [some]
  | cons newline later =>
    have isNewline : newline = 10 := by
      have stopped := List.head?_dropWhile_not (· != 10) data
      rw [rest] at stopped
      simpa using stopped
    rw [rest, isNewline] at whole
    have parts : data.splitOn 10 = firstLine data :: later.splitOn 10 := by
      rw [← whole, List.splitOn_append_cons_self_of_not_mem clean, whole]
    have dropped : data.drop ((firstLine data).length + 1) = later := by
      conv => lhs; arg 2; rw [← whole]
      simp
    obtain ⟨first, others, more⟩ := List.exists_cons_of_ne_nil (List.splitOn_ne_nil 10 later)
    rw [dropped]
    simp only [scanLines, parts, more, List.getLast?_cons_cons, List.dropLast_cons_cons]
    split <;> rfl

theorem parseBuffer_eq (p : Parser) (lineNum : Nat) (data : Bytes) :
    parseBuffer p lineNum data = parseLines p lineNum (scanLines data) := by
  induction p, lineNum, data using parseBuffer.induct with
  | case1 p lineNum =>
    rw [parseBuffer, if_pos rfl, scanLines_nil, parseLines]
  | case2 p lineNum data some token long =>
    rw [parseBuffer, if_neg some, scanLines_eq_cons some, parseLines]
    exact (if_pos long).trans (if_pos long).symm
  | case3 p lineNum data some token short err failed =>
    rw [parseBuffer, if_neg some, scanLines_eq_cons some, parseLines]
    simp only [token] at short failed
    simp only [if_neg short, failed]
  | case4 p lineNum data some token short after done ih =>
    rw [parseBuffer, if_neg some, scanLines_eq_cons some, parseLines]
    rw [unread_eq] at ih
    simp only [token] at short done ih
    simp only [if_neg short, done, unread_eq, ih]

theorem parseBuffer_newParser (src : Bytes) : parseBuffer newParser 1 src = parse src :=
  parseBuffer_eq newParser 1 src

end AdGuardHome.Filtering.RuleList

namespace AdGuardHome.Filtering

open RuleList Strings

/-- The files of the disk, all of which can be opened and closed. -/
def Disk.opened (disk : Disk) (modTime : ListID → Int) : Stored :=
  fun id => (disk.get id).map fun file => (file, modTime id)

/-- The list as it is read from the configuration file, which does not have the rest. -/
def FilterYAML.configured (flt : FilterYAML) : FilterYAML :=
  { flt with rulesCount := 0, lastUpdated := zeroTime, checksum := 0, white := false }

theorem lit_list_ne_nil : lit "List " ≠ [] := by decide

theorem ensureName_ne_nil (flt : FilterYAML) (title : Bytes) : (flt.ensureName title).name ≠ [] := by
  unfold FilterYAML.ensureName
  split
  · assumption
  split
  · assumption
  · exact List.append_ne_nil_of_left_ne_nil lit_list_ne_nil _

theorem ensureName_of_name {flt : FilterYAML} (named : flt.name ≠ []) (title : Bytes) :
    flt.ensureName title = flt := if_pos named

/-- A named list whose file has contents that the parser has written is loaded with their
data. -/
theorem load_written {disk : Disk} {flt : FilterYAML} {src : Bytes} {res : Parser}
    (parsed : parse src = .ok res) (found : disk.get flt.id = some res.dst) (named : flt.name ≠ [])
    (modTime : ListID → Int) :
    load (disk.opened modTime) flt = { flt with
      rulesCount := res.rulesCount
      checksum := res.checksum
      lastUpdated := modTime flt.id } := by
  simp only [load, Disk.opened, found, Option.map_some, parse_dst parsed, ensureName_of_name named]

theorem parsed_cases {d : Download} {res : Parser} (parsed : d.parsed = some res) :
    ∃ src, d.body = some src ∧ parse src = .ok res := by
  unfold Download.parsed at parsed
  split at parsed
  · cases parsed
  next src body =>
    split at parsed
    · cases parsed
    next found => exact ⟨src, body, Option.some.inj parsed ▸ found⟩

theorem load_replaced {disk : Disk} {flt : FilterYAML} {d : Download}
    (updated : (update disk flt d).updated = true) (done : (update disk flt d).err = none)
    (modTime : ListID → Int) :
    let stored := (update disk flt d).flt
    load ((update disk flt d).disk.opened modTime) stored.configured = { stored.configured with
      rulesCount := stored.rulesCount
      checksum := stored.checksum
      lastUpdated := modTime stored.id } := by
  have updating := update_cases disk flt d
  generalize update disk flt d = u at updating updated done ⊢
  cases updating with
  | failed => cases updated
  | unchanged => cases updated
  | replaceFailed => cases done
  | replaced res parsed =>
    obtain ⟨src, -, read⟩ := parsed_cases parsed
    have sameId : (flt.loaded res).id = flt.id := congrArg (·.1) (flt.ensureName_identity res.title)
    have found : (disk.set flt.id res.dst).get (flt.loaded res).configured.id = some res.dst := by
      change FiniteMap.get _ (flt.loaded res).id = _
      rw [sameId, FiniteMap.get_set_self]
    exact load_written read found (ensureName_ne_nil flt res.title) modTime

/-- What the parser has written it reads back as it is, and a list that was updated gets the
same name, count and checksum when it is loaded again. -/
theorem normalisation_idempotent :
    (∀ (src : Bytes) (p : Parser), parseBuffer newParser 1 src = .ok p →
      ∃ q, parseBuffer newParser 1 p.dst = .ok q ∧ q.rulesCount = p.rulesCount ∧
        q.checksum = p.checksum ∧ q.dst = p.dst) ∧
    ∀ (disk : Disk) (flt : FilterYAML) (d : Download) (modTime : ListID → Int),
      (update disk flt d).updated = true → (update disk flt d).err = none →
        let stored := (update disk flt d).flt
        let loaded := load ((update disk flt d).disk.opened modTime) stored.configured
        loaded.name = stored.name ∧ loaded.rulesCount = stored.rulesCount ∧
          loaded.checksum = stored.checksum := by
  constructor
  · intro src p parsed
    rw [parseBuffer_newParser] at parsed
    rw [parseBuffer_newParser]
    exact ⟨_, parse_dst parsed, rfl, rfl, rfl⟩
  · intro disk flt d modTime updated done
    have loaded := load_replaced updated done modTime
    simp only at loaded ⊢
    rw [loaded]
    exact ⟨rfl, rfl, rfl⟩

/-- A title, a comment, a blank line, spaces around a rule, a line like a tag behind it and
no newline at the end. -/
theorem normalisation_idempotent_titled :
    let src := lit "! Title: T\n# c\n\n  a \r\n<html>"
    let sum := crcUpdate (crcUpdate 0 (lit "a")) (lit "<html>")
    let flt : FilterYAML := ⟨true, lit "u", [], 0, zeroTime, 0, false, 1⟩
    let d : Download := ⟨true, some src, true, true, 5⟩
    parse src = .ok ⟨lit "T", 2, 9, sum, true, lit "a\n<html>\n"⟩ ∧
    (∃ q, parseBuffer newParser 1 (lit "a\n<html>\n") = .ok q ∧ q.rulesCount = 2 ∧
      q.checksum = sum ∧ q.dst = lit "a\n<html>\n") ∧
    (update ∅ flt d).flt.name = lit "T" ∧
      (load ((update ∅ flt d).disk.opened fun _ => 7) (update ∅ flt d).flt.configured).checksum =
        (update ∅ flt d).flt.checksum := by
  intro src sum flt d
  have parsed : parse src = .ok ⟨lit "T", 2, 9, sum, true, lit "a\n<html>\n"⟩ := by
    decide +kernel
  have again := normalisation_idempotent.1 src _ ((parseBuffer_newParser src).trans parsed)
  have loaded := normalisation_idempotent.2 ∅ flt d (fun _ => 7) (by decide +kernel) (by decide +kernel)
  exact ⟨parsed, again, by decide +kernel, loaded.2.2⟩

end AdGuardHome.Filtering
