import AdGuardHome.Filtering.RuleListEngine

namespace AdGuardHome.Filtering.RuleList

open Strings

structure IsRule (line : Bytes) : Prop where
  trimmed : Trimmed line
  oneLine : 10 ∉ line
  short : line.length < maxScanTokenSize
  rule : parseLine line = .rule

theorem parseLine_of_title {line : Bytes} (rule : parseLineTitle line = .rule) :
    parseLine line = .rule := by
  cases line with
  | nil => nomatch rule
  | cons first rest =>
    simp only [parseLineTitle] at rule
    split at rule
    · nomatch rule
    next noComment =>
      split at rule
      next noTitle => simpa only [parseLine, noComment, noTitle, or_self, ↓reduceIte] using rule
      next => split at rule <;> nomatch rule

theorem parseLineTitle_of_rule {line : Bytes} (rule : parseLine line = .rule) :
    parseLineTitle line = .rule := by
  cases line with
  | nil => nomatch rule
  | cons first rest =>
    simp only [parseLine] at rule
    split at rule
    · nomatch rule
    next noComment =>
      rw [not_or] at noComment
      simpa only [parseLineTitle, noComment.1, ne_eq, noComment.2, not_false_eq_true,
        ↓reduceIte] using rule

def join (rules : List Bytes) : Bytes := rules.flatMap (· ++ [10])

structure Normal (p : Parser) (rules : List Bytes) : Prop where
  rule : ∀ rule ∈ rules, IsRule rule
  html : ∀ rule ∈ rules.head?, isHTMLLine rule = false
  dst : p.dst = join rules
  rulesCount : p.rulesCount = rules.length
  checksum : p.checksum = rules.foldl crcUpdate 0
  written : p.written = p.dst.length

namespace Normal

theorem newParser : Normal newParser [] := by
  constructor <;> simp [RuleList.newParser, join]

/-- A line adds a rule or none. -/
theorem processLine {p p' : Parser} {rules : List Bytes} (normal : Normal p rules) {line : Bytes}
    {lineNum : Nat} (oneLine : 10 ∉ line) (short : line.length < maxScanTokenSize)
    (done : processLine p line lineNum = .ok p') : ∃ rules', Normal p' rules' := by
  have inside := trimSpace_infix line
  simp only [RuleList.processLine] at done
  split at done
  · nomatch done
  next noHTML =>
    generalize kind : (if p.titleFound = true then parseLine (trimSpace line)
      else parseLineTitle (trimSpace line)) = result at done
    cases result with
    | binary index byte => nomatch done
    | other =>
      obtain rfl := Except.ok.inj done
      exact ⟨rules, normal⟩
    | title title =>
      obtain rfl := Except.ok.inj done
      exact ⟨rules, ⟨normal.rule, normal.html, normal.dst, normal.rulesCount, normal.checksum,
        normal.written⟩⟩
    | rule =>
      obtain rfl := Except.ok.inj done
      have isRule : IsRule (trimSpace line) := by
        refine ⟨trimSpace_trimmed line, ?_, inside.length_le.trans_lt short, ?_⟩
        · exact fun newline => oneLine (inside.subset newline)
        · split at kind
          · exact kind
          · exact parseLine_of_title kind
      refine ⟨rules ++ [trimSpace line], ?_, ?_, ?_, ?_, ?_, ?_⟩
      · intro rule member
        rcases List.mem_append.mp member with former | new
        · exact normal.rule rule former
        · exact List.mem_singleton.mp new ▸ isRule
      · cases rules with
        | cons first rest => exact normal.html
        | nil =>
          intro rule head
          obtain rfl := Option.some.inj head
          have nothing : p.written = 0 := by rw [normal.written, normal.dst]; rfl
          simpa [nothing] using noHTML
      · simp [normal.dst, join]
      · simp [normal.rulesCount]
      · simp [normal.checksum]
      · simp [normal.written]

theorem parseLines {p p' : Parser} {rules lines : List Bytes} (normal : Normal p rules)
    {lineNum : Nat} (oneLine : ∀ line ∈ lines, 10 ∉ line)
    (done : parseLines p lineNum lines = .ok p') : ∃ rules', Normal p' rules' := by
  induction lines generalizing p rules lineNum with
  | nil =>
    obtain rfl := Except.ok.inj done
    exact ⟨rules, normal⟩
  | cons line rest ih =>
    simp only [RuleList.parseLines] at done
    split at done
    · nomatch done
    next short =>
      split at done
      · nomatch done
      next next processed =>
        have inside : trimSuffix line [13] <+: line := by
          unfold trimSuffix
          split
          · exact List.take_prefix _ _
          · exact List.prefix_refl _
        have noNewline : 10 ∉ trimSuffix line [13] := fun newline =>
          oneLine line List.mem_cons_self (inside.subset newline)
        obtain ⟨rules', after⟩ := normal.processLine noNewline
          (inside.length_le.trans_lt (Nat.lt_of_not_le short)) processed
        exact ih after (fun line member => oneLine line (List.mem_cons_of_mem _ member)) done

end Normal

theorem not_mem_of_mem_splitOn (src : Bytes) : ∀ line ∈ src.splitOn 10, 10 ∉ line := by
  induction src with
  | nil => simp
  | cons byte rest ih =>
    rw [List.splitOn_cons_eq_if_modifyHead]
    split
    next =>
      intro line member
      rcases List.mem_cons.mp member with rfl | later
      · exact List.not_mem_nil
      · exact ih line later
    next other =>
      cases lines : rest.splitOn 10 with
      | nil => exact absurd lines (List.splitOn_ne_nil 10 rest)
      | cons first others =>
        rw [lines] at ih
        intro line member
        rcases List.mem_cons.mp member with rfl | later
        · intro newline
          rcases List.mem_cons.mp newline with rfl | inFirst
          · simp at other
          · exact ih first List.mem_cons_self inFirst
        · exact ih line (List.mem_cons_of_mem _ later)

theorem mem_scanLines {src line : Bytes} (member : line ∈ scanLines src) : 10 ∉ line := by
  refine not_mem_of_mem_splitOn src line ?_
  simp only [scanLines] at member
  split at member
  · exact List.mem_of_mem_dropLast member
  · exact member

theorem parse_normal {src : Bytes} {p : Parser} (parsed : parse src = .ok p) :
    ∃ rules, Normal p rules :=
  Normal.newParser.parseLines (fun _ member => mem_scanLines member) parsed

theorem scanLines_join {rules : List Bytes} (oneLine : ∀ rule ∈ rules, 10 ∉ rule) :
    scanLines (join rules) = rules := by
  have lines : (join rules).splitOn 10 = rules ++ [[]] := by
    induction rules with
    | nil => rfl
    | cons rule rest ih =>
      have joined : join (rule :: rest) = rule ++ 10 :: join rest := by simp [join]
      rw [joined, List.splitOn_append_cons_self_of_not_mem (oneLine rule List.mem_cons_self),
        ih fun rule member => oneLine rule (List.mem_cons_of_mem _ member)]
      rfl
  simp only [scanLines, lines, List.getLast?_append, List.getLast?_singleton, Option.some_or,
    ↓reduceIte, List.dropLast_concat]

theorem processLine_rule {p : Parser} {rule : Bytes} (lineNum : Nat) (isRule : IsRule rule)
    (html : p.written = 0 → isHTMLLine rule = false) :
    processLine p (trimSuffix rule [13]) lineNum = .ok { p with
      rulesCount := p.rulesCount + 1
      checksum := crcUpdate p.checksum rule
      written := p.written + (rule.length + 1)
      dst := p.dst ++ rule ++ [10] } := by
  have noReturn : trimSuffix rule [13] = rule := by
    have absent : hasSuffix rule [13] = false := by
      rw [Bool.eq_false_iff]
      exact fun found => isRule.trimmed.right [13] (by decide) (hasSuffix_iff.mp found)
    rw [trimSuffix, absent, if_neg Bool.false_ne_true]
  have kind : (if p.titleFound = true then parseLine rule else parseLineTitle rule) = .rule := by
    rw [isRule.rule, parseLineTitle_of_rule isRule.rule, ite_self]
  have allowed : ¬ (p.written = 0 ∧ isHTMLLine rule = true) := by
    rintro ⟨nothing, isHTML⟩
    simp [html nothing] at isHTML
  rw [noReturn, processLine, trimSpace_of_trimmed isRule.trimmed]
  simp only [if_neg allowed, kind]

/-- Rules are read one after the other. -/
theorem parseLines_rules {rules : List Bytes} (isRule : ∀ rule ∈ rules, IsRule rule) (p : Parser)
    (html : p.written = 0 → ∀ rule ∈ rules.head?, isHTMLLine rule = false) (lineNum : Nat) :
    parseLines p lineNum rules = .ok { p with
      rulesCount := p.rulesCount + rules.length
      checksum := rules.foldl crcUpdate p.checksum
      written := p.written + (join rules).length
      dst := p.dst ++ join rules } := by
  induction rules generalizing p lineNum with
  | nil => simp [parseLines, join]
  | cons rule rest ih =>
    have first := isRule rule List.mem_cons_self
    have step := processLine_rule lineNum first
      fun nothing => html nothing rule rfl
    rw [parseLines, if_neg (Nat.not_le.mpr first.short), step]
    simp only
    rw [ih (fun rule member => isRule rule (List.mem_cons_of_mem _ member))]
    · simp [join, Nat.add_assoc, Nat.add_comm, Nat.add_left_comm]
    · intro nothing
      simp at nothing

theorem parse_dst {src : Bytes} {p : Parser} (parsed : parse src = .ok p) :
    parse p.dst = .ok { p with title := [], titleFound := false } := by
  obtain ⟨rules, normal⟩ := parse_normal parsed
  have lines : scanLines p.dst = rules := by
    rw [normal.dst]
    exact scanLines_join fun rule member => (normal.rule rule member).oneLine
  rw [parse, lines, parseLines_rules normal.rule newParser fun _ => normal.html]
  simp [newParser, normal.rulesCount, normal.checksum, normal.written, normal.dst]

end AdGuardHome.Filtering.RuleList
