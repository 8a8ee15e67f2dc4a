import AdGuardHome.Dhcpd.V4Server
import AdGuardHome.Lib.Splitting

namespace AdGuardHome.Dhcpd

open Netip Splitting

/-- What the documentation of `strings.ToLower` and of `netutil` says about the checks. -/
structure Env.Documented (env : Env) : Prop where
  toLower : ∃ lower : Char → Char, (∀ s, (env.toLower s).toList = s.toList.map lower) ∧
    (∀ c, lower (lower c) = lower c) ∧ lower '-' = '-' ∧ ∀ c, c.isDigit = true → lower c = c
  hyphen : env.isValidHostOuterRune '-' = false
  digit : ∀ c, c.isDigit = true → env.isValidHostOuterRune c = true
  generated : ∀ value, env.validateHostname (generateHostname (.v4 value)) = true
  validateMAC : ∀ mac, env.validateMAC mac = true →
    mac.length = 6 ∨ mac.length = 8 ∨ mac.length = 20

def Env.separates (env : Env) (c : Char) : Bool := c != '.' && !env.isValidHostOuterRune c

structure Normal (env : Env) (name : String) : Prop where
  normalized : normalizeHostname env name = .ok name
  valid : env.validateHostname name = true

variable {env : Env}

/-- Joined parts in lower case are normalized. -/
theorem normalizeHostname_joined (documented : env.Documented) {parts : List (List Char)}
    (some : parts ≠ []) (nonempty : ∀ part ∈ parts, part ≠ [])
    (clean : ∀ part ∈ parts, ∀ c ∈ part, env.separates c = false)
    (lower : (env.toLower (String.ofList (['-'].intercalate parts))).toList =
      ['-'].intercalate parts) :
    normalizeHostname env (String.ofList (['-'].intercalate parts)) =
      .ok (String.ofList (['-'].intercalate parts)) := by
  have hyphen : env.separates '-' = true := by
    rw [Env.separates, documented.hyphen]
    rfl
  have kept : (['-'].intercalate parts).getLast? ≠ Option.some '-' := by
    intro last
    obtain ⟨part, present, inPart⟩ := getLast?_intercalate nonempty last
    have other := clean part present '-' inPart
    rw [hyphen] at other
    cases other
  have name : String.ofList (['-'].intercalate parts) ≠ "" := by
    intro empty
    have joined : ['-'].intercalate parts = [] := by
      rw [← String.toList_ofList (l := ['-'].intercalate parts), empty]
      rfl
    have split := splitOnP_intercalate hyphen some clean
    rw [joined, List.splitOnP_nil] at split
    exact nonempty [] (by rw [← split]; simp) rfl
  have split : (['-'].intercalate parts).splitOnP (fun c =>
      c != '.' && !env.isValidHostOuterRune c) = parts :=
    splitOnP_intercalate hyphen some clean
  have all : parts.filter (· ≠ []) = parts := by
    rw [List.filter_eq_self]
    intro part present
    simpa using nonempty part present
  unfold normalizeHostname
  rw [if_neg name, lower, split]
  simp only [all, if_neg some, if_neg kept]

theorem normalizeHostname_idem (documented : env.Documented) {hostname name : String}
    (normalized : normalizeHostname env hostname = .ok name) :
    normalizeHostname env name = .ok name := by
  unfold normalizeHostname at normalized
  split at normalized
  · obtain rfl : "" = name := by simpa using normalized
    rfl
  dsimp only at normalized
  generalize parted : (((env.toLower hostname).toList.splitOnP fun c =>
    c != '.' && !env.isValidHostOuterRune c).filter (· ≠ [])) = parts at normalized
  split at normalized
  · cases normalized
  rename_i some
  have parts_spec : ∀ part ∈ parts, part ≠ [] ∧ ∀ c ∈ part,
      env.separates c = false ∧ c ∈ (env.toLower hostname).toList := by
    intro part present
    rw [← parted, List.mem_filter] at present
    refine ⟨by simpa using present.2, ?_⟩
    intro c inPart
    exact mem_splitOnP present.1 inPart
  have clean : ∀ part ∈ parts, ∀ c ∈ part, env.separates c = false :=
    fun part present c inPart => ((parts_spec part present).2 c inPart).1
  have nonempty : ∀ part ∈ parts, part ≠ [] := fun part present => (parts_spec part present).1
  have kept : (['-'].intercalate parts).getLast? ≠ Option.some '-' := by
    intro last
    obtain ⟨part, present, inPart⟩ := getLast?_intercalate nonempty last
    have other := clean part present '-' inPart
    rw [Env.separates, documented.hyphen] at other
    cases other
  rw [if_neg kept] at normalized
  obtain rfl := Except.ok.inj normalized
  refine normalizeHostname_joined documented some nonempty clean ?_
  obtain ⟨lower, mapped, twice, hyphen, _⟩ := documented.toLower
  rw [mapped, String.toList_ofList]
  conv_rhs => rw [← List.map_id (['-'].intercalate parts)]
  apply List.map_congr_left
  intro c member
  rcases mem_intercalate member with rfl | ⟨part, present, inPart⟩
  · exact hyphen
  · have lowered := ((parts_spec part present).2 c inPart).2
    rw [mapped, List.mem_map] at lowered
    obtain ⟨upper, _, rfl⟩ := lowered
    exact twice upper

theorem normal_generated (documented : env.Documented) (value : BitVec 32) :
    Normal env (generateHostname (.v4 value)) := by
  refine ⟨?_, documented.generated value⟩
  generalize octets : ([24, 16, 8, 0].map fun shift =>
    toString ((value.toNat >>> shift) % 256)) = texts
  have spelled : generateHostname (.v4 value) =
      String.ofList (['-'].intercalate (texts.map String.toList)) := by
    have joined : (generateHostname (.v4 value)).toList =
        ['-'].intercalate (texts.map String.toList) := by
      rw [← octets]
      exact String.toList_intercalate
    rw [← joined, String.ofList_toList]
  have digits : ∀ part ∈ texts.map String.toList, part ≠ [] ∧ ∀ c ∈ part, c.isDigit = true := by
    intro part present
    simp only [← octets, List.map_map, List.mem_map] at present
    obtain ⟨shift, _, rfl⟩ := present
    simp only [Function.comp_apply, Nat.toString_eq_ofList_toDigits, String.toList_ofList]
    refine ⟨?_, ?_⟩
    · intro empty
      have length := Nat.length_toDigits_pos (b := 10) (n := (value.toNat >>> shift) % 256)
      rw [empty] at length
      cases length
    · intro c member
      exact Nat.isDigit_of_mem_toDigits (by decide) (by decide) member
  rw [spelled]
  apply normalizeHostname_joined documented
  · rw [← octets]
    simp
  · intro part present
    exact (digits part present).1
  · intro part present c inPart
    rw [Env.separates, documented.digit c ((digits part present).2 c inPart)]
    simp
  · obtain ⟨lower, mapped, _, hyphen, digit⟩ := documented.toLower
    rw [mapped, String.toList_ofList]
    conv_rhs => rw [← List.map_id (['-'].intercalate (texts.map String.toList))]
    apply List.map_congr_left
    intro c member
    rcases mem_intercalate member with rfl | ⟨part, present, inPart⟩
    · exact hyphen
    · exact digit c ((digits part present).2 c inPart)

namespace V4Server

/-- A client gets a normal name or none. -/
theorem validHostnameForClient_normal (documented : env.Documented) (cliHostname : String)
    (value : BitVec 32) :
    validHostnameForClient env cliHostname (.v4 value) = "" ∨
      Normal env (validHostnameForClient env cliHostname (.v4 value)) := by
  unfold validHostnameForClient
  dsimp only
  cases attempt : normalizeHostname env cliHostname with
  | error error =>
    rw [if_pos rfl, if_pos (documented.generated value)]
    exact .inr (normal_generated documented value)
  | ok norm =>
    dsimp only
    by_cases empty : norm = ""
    · rw [if_pos empty, if_pos (documented.generated value)]
      exact .inr (normal_generated documented value)
    · rw [if_neg empty]
      by_cases valid : env.validateHostname norm = true
      · rw [if_pos valid]
        exact .inr ⟨normalizeHostname_idem documented attempt, valid⟩
      · rw [if_neg valid]
        exact .inl rfl

theorem validHostnameForClient_of_normal {name : String} (normal : Normal env name)
    (named : name ≠ "") (ip : Addr) : validHostnameForClient env name ip = name := by
  unfold validHostnameForClient
  rw [normal.normalized]
  dsimp only
  rw [if_neg named, if_pos normal.valid]

theorem validHostnameForClient_empty (documented : env.Documented) (value : BitVec 32) :
    validHostnameForClient env "" (.v4 value) = generateHostname (.v4 value) := by
  unfold validHostnameForClient
  rw [normalizeHostname, if_pos rfl]
  dsimp only
  rw [if_pos rfl, if_pos (documented.generated value)]

end V4Server

end AdGuardHome.Dhcpd
