import AdGuardHome.Lib.Fallible
import AdGuardHome.Lib.Loop
import AdGuardHome.Lib.Worklist

/-! Package `aghos`: the walk over the files that patterns match, and over those that these
files include by patterns of their own. -/
namespace AdGuardHome.Aghos

open Looping Worklist

/-- An error of a file system or of a walker function; `notExist` tells whether it is an
`fs.ErrNotExist`. -/
structure Failure where
  text : String
  notExist : Bool
deriving DecidableEq

/-- The type in a `fs.FileMode`. -/
inductive FileType where
  | regular
  | dir
  | symlink
  | namedPipe
  | socket
  | device
  | charDevice
  | irregular
deriving DecidableEq

/-- An open `fs.File`: what `Stat` and `Close` return, and what a reader gets of it. -/
structure File (Content : Type) where
  stat : Except Failure FileType
  content : Content
  close : Option Failure

/-- `fs.FS`, by `Open` and by what `fs.Glob` finds. -/
structure FS (Content : Type) where
  openFile : String → Except Failure (File Content)
  glob : String → Except Failure (List String)

structure Returned where
  patterns : List String
  cont : Bool
  err : Option Failure
deriving DecidableEq

/-- `FileWalker`. -/
abbrev FileWalker (Content : Type) := Content → Returned

/-- The error of `handlePatterns`: `invalid pattern %q: %w`. -/
structure InvalidPattern where
  pattern : String
  err : Failure
deriving DecidableEq

/-- The errors of a walk. `errors.WithDeferred` makes one of the last two where a file fails to
close, and `checking` is the annotation of `Walk`: `checking %q: %w`. -/
inductive WalkError where
  | plain (err : Failure)
  | invalidPattern (err : InvalidPattern)
  | checking (filename : String) (err : WalkError)
  | deferred (err : Failure)
  | pair (returned deferred : Failure)
deriving DecidableEq

/-- `errors.WithDeferred`. -/
def withDeferred : Option Failure → Option Failure → Option WalkError
  | none, none => none
  | some returned, none => some (.plain returned)
  | none, some deferred => some (.deferred deferred)
  | some returned, some deferred => some (.pair returned deferred)

/-- What happens in a walk: the walker function returned, or another step failed. -/
inductive WalkEvent where
  | called (filename : String) (returned : Returned)
  | failed (err : Failure)
deriving DecidableEq

/-- The results of `checkFile`, and what happened in it. -/
structure Checked where
  patterns : List String
  cont : Bool
  err : Option WalkError
  events : List WalkEvent
deriving DecidableEq

/-- The state of the loop in `FileWalker.Walk`. -/
structure Walking where
  srcSet : Finset String
  src : List String
  i : Nat
  trace : List WalkEvent

/-- The results of `FileWalker.Walk`, and what happened in it. -/
structure Walked where
  ok : Bool
  err : Option WalkError
  trace : List WalkEvent
deriving DecidableEq

variable {Content : Type}

/-- `checkFile` on a file that it has opened. -/
def checkOpened (c : FileWalker Content) (sourcePath : String) (f : File Content) :
    Returned × List WalkEvent :=
  match f.stat with
  | .error err => (⟨[], true, some err⟩, [.failed err])
  | .ok fi =>
    if fi = .dir then (⟨[], true, none⟩, [])
    else (c f.content, [.called sourcePath (c f.content)])

/-- `checkFile`. -/
def checkFile (fsys : FS Content) (c : FileWalker Content) (sourcePath : String) : Checked :=
  match fsys.openFile sourcePath with
  | .error err =>
    if err.notExist then ⟨[], true, none, []⟩ else ⟨[], false, some (.plain err), [.failed err]⟩
  | .ok f =>
    let (returned, events) := checkOpened c sourcePath f
    ⟨returned.patterns, returned.cont, withDeferred returned.err f.close,
      events ++ (f.close.map WalkEvent.failed).toList⟩

/-- A match in the inner loop of `handlePatterns`. -/
def addMatch (found : Finset String × List String) (m : String) : Finset String × List String :=
  if m ∈ found.1 then found else (insert m found.1, found.2 ++ [m])

/-- A round of the outer loop in `handlePatterns`. -/
def addPattern (fsys : FS Content) (found : Finset String × List String) (p : String) :
    Except InvalidPattern (Finset String × List String) :=
  match fsys.glob p with
  | .error err => .error ⟨p, err⟩
  | .ok names => .ok (names.foldl addMatch found)

/-- `handlePatterns`, which also returns the set that it has changed. -/
def handlePatterns (fsys : FS Content) (srcSet : Finset String) (patterns : List String) :
    Except InvalidPattern (Finset String × List String) :=
  patterns.foldlM (addPattern fsys) (srcSet, [])

/-- A round of the loop in `FileWalker.Walk`. -/
def walkRound (fsys : FS Content) (fw : FileWalker Content) (w : Walking) : Walking ⊕ Walked :=
  match w.src[w.i]? with
  | none => .inr ⟨false, none, w.trace⟩
  | some filename =>
    let checked := checkFile fsys fw filename
    let trace := w.trace ++ checked.events
    match checked.err with
    | some err => .inr ⟨false, some (.checking filename err), trace⟩
    | none =>
      if !checked.cont then .inr ⟨true, none, trace⟩
      else match handlePatterns fsys w.srcSet checked.patterns with
        | .error err =>
          .inr ⟨false, some (.checking filename (.invalidPattern err)), trace ++ [.failed err.err]⟩
        | .ok (srcSet, subsrc) => .inl ⟨srcSet, w.src ++ subsrc, w.i + 1, trace⟩

/-- `FileWalker.Walk`. An error in the initial patterns is not annotated. -/
def walk (fsys : FS Content) (fw : FileWalker Content) (initial : List String) (fuel : Nat) :
    Option Walked :=
  match handlePatterns fsys ∅ initial with
  | .error err => some ⟨false, some (.invalidPattern err), [.failed err.err]⟩
  | .ok (srcSet, src) => run (walkRound fsys fw) fuel ⟨srcSet, src, 0, []⟩

/-- The file that a walker function is called on: there is one, and it is no directory. -/
def FS.fileAt (fsys : FS Content) (name : String) : Option (File Content) :=
  match fsys.openFile name with
  | .error _ => none
  | .ok f =>
    match f.stat with
    | .error _ => none
    | .ok fi => if fi = .dir then none else some f

def FS.isFile (fsys : FS Content) (name : String) : Bool := (fsys.fileAt name).isSome

def FS.matched (fsys : FS Content) (patterns : List String) : Set String :=
  {name | ∃ p ∈ patterns, ∃ names, fsys.glob p = .ok names ∧ name ∈ names}

def patternsOf (fsys : FS Content) (fw : FileWalker Content) (name : String) : List String :=
  match fsys.fileAt name with
  | some f => (fw f.content).patterns
  | none => []

def included (fsys : FS Content) (fw : FileWalker Content) (name : String) : Set String :=
  fsys.matched (patternsOf fsys fw name)

/-- The least set with the matches of the initial patterns and of the patterns that are returned
for its files. -/
def Closure (fsys : FS Content) (fw : FileWalker Content) (initial : List String) :
    String → Prop :=
  Reached (fsys.matched initial) (included fsys fw)

namespace WalkEvent

def file : WalkEvent → Option String
  | .called filename _ => some filename
  | .failed _ => none

def Fails : WalkEvent → Prop
  | .called _ returned => returned.err ≠ none
  | .failed _ => True

def Proceeds : WalkEvent → Prop
  | .called _ returned => returned.err = none ∧ returned.cont = true
  | .failed _ => False

def Stops : WalkEvent → Prop
  | .called _ returned => returned.err = none ∧ returned.cont = false
  | .failed _ => False

/-- Whether the file of the event, if it has one, is closed without an error. -/
def Closes (fsys : FS Content) (e : WalkEvent) : Prop :=
  ∀ filename f, e.file = some filename → fsys.fileAt filename = some f → f.close = none

end WalkEvent

/-- The files that the walker function is called on, in their order. -/
def filesOf (trace : List WalkEvent) : List String := trace.filterMap WalkEvent.file

/-- Some call tells the walk to stop before anything has failed, and its file closes. -/
def Stopped (fsys : FS Content) (trace : List WalkEvent) : Prop :=
  ∃ before e after, trace = before ++ e :: after ∧ (∀ earlier ∈ before, ¬ earlier.Fails) ∧
    e.Stops ∧ e.Closes fsys

/-- A walk over the closure: at most one call for each name and only on files, and where nothing
fails or stops the walk, on all the files of the closure, each before those that are included
only through it. -/
structure Visits (fsys : FS Content) (fw : FileWalker Content) (initial : List String)
    (walked : Walked) : Prop where
  once : (filesOf walked.trace).Nodup
  files : ∀ name ∈ filesOf walked.trace, fsys.isFile name = true
  closure : (∀ e ∈ walked.trace, e.Proceeds) →
    ∀ name, name ∈ filesOf walked.trace ↔ Closure fsys fw initial name ∧ fsys.isFile name = true
  order : (∀ e ∈ walked.trace, e.Proceeds) →
    ∀ through ∈ filesOf walked.trace, ∀ name ∈ filesOf walked.trace,
      OnlyThrough (fsys.matched initial) (included fsys fw) through name →
      [through, name].Sublist (filesOf walked.trace)
  stopped : walked.ok = true ↔ Stopped fsys walked.trace

section Matches

/-- What a walk over names has made of a set: those that were not in it come to a list once. -/
structure Added (srcSet : Finset String) (names : List String)
    (found : Finset String × List String) : Prop where
  set : ∀ m, m ∈ found.1 ↔ m ∈ srcSet ∨ m ∈ found.2
  fresh : ∀ m ∈ found.2, m ∉ srcSet
  nodup : found.2.Nodup
  sound : ∀ m ∈ found.2, m ∈ names
  all : ∀ m ∈ names, m ∈ found.1

variable {srcSet : Finset String} {names : List String} {found : Finset String × List String}

theorem Added.nil (srcSet : Finset String) : Added srcSet [] (srcSet, []) where
  set _ := (or_iff_left List.not_mem_nil).symm
  fresh _ member := nomatch member
  nodup := .nil
  sound _ member := nomatch member
  all _ member := nomatch member

theorem Added.addMatch (added : Added srcSet names found) (m : String) :
    Added srcSet (names ++ [m]) (addMatch found m) := by
  by_cases known : m ∈ found.1
  · rw [Aghos.addMatch, if_pos known]
    refine { added with sound := fun name member => ?_, all := fun name member => ?_ }
    · exact List.mem_append_left _ (added.sound name member)
    · rcases List.mem_append.mp member with before | last
      · exact added.all name before
      · exact List.mem_singleton.mp last ▸ known
  · rw [Aghos.addMatch, if_neg known]
    rw [added.set, not_or] at known
    constructor
    · intro name
      rw [Finset.mem_insert, List.mem_append, List.mem_singleton, added.set]
      tauto
    · intro name member
      rcases List.mem_append.mp member with before | last
      · exact added.fresh name before
      · exact List.mem_singleton.mp last ▸ known.1
    · exact List.nodup_append.mpr ⟨added.nodup, List.nodup_singleton m, fun name before other last =>
        fun same => known.2 (List.mem_singleton.mp last ▸ same ▸ before)⟩
    · intro name member
      rcases List.mem_append.mp member with before | last
      · exact List.mem_append_left _ (added.sound name before)
      · exact List.mem_append_right _ last
    · intro name member
      rcases List.mem_append.mp member with before | last
      · exact Finset.mem_insert_of_mem (added.all name before)
      · exact List.mem_singleton.mp last ▸ Finset.mem_insert_self _ _

theorem Added.append (added : Added srcSet names found) (more : List String) :
    Added srcSet (names ++ more) (more.foldl Aghos.addMatch found) := by
  induction more generalizing names found with
  | nil => rwa [List.append_nil]
  | cons m rest ih =>
    rw [List.append_cons]
    exact ih (added.addMatch m)

variable {fsys : FS Content}

theorem Added.patterns {patterns : List String} {start : Finset String × List String}
    (added : Added srcSet names start) (done : patterns.foldlM (addPattern fsys) start = .ok found) :
    ∃ more, Added srcSet (names ++ more) found ∧ ∀ m, m ∈ more ↔ m ∈ fsys.matched patterns := by
  induction patterns generalizing names start with
  | nil =>
    cases done
    exact ⟨[], by rwa [List.append_nil], fun m => by simp [FS.matched]⟩
  | cons p rest ih =>
    obtain ⟨next, here, later⟩ := Fallible.bind_ok_iff.mp done
    unfold addPattern at here
    split at here
    next => nomatch here
    next matched globbed =>
    cases here
    obtain ⟨more, all, among⟩ := ih (added.append matched) later
    refine ⟨matched ++ more, by rwa [← List.append_assoc], fun m => ?_⟩
    rw [List.mem_append, among]
    constructor
    · intro either
      rcases either with first | ⟨q, member, names, globbed', inside⟩
      · exact ⟨p, List.mem_cons_self, matched, globbed, first⟩
      · exact ⟨q, List.mem_cons_of_mem _ member, names, globbed', inside⟩
    · intro ⟨q, member, names, globbed', inside⟩
      rcases List.mem_cons.mp member with rfl | later
      · rw [globbed] at globbed'
        exact .inl (Except.ok.inj globbed' ▸ inside)
      · exact .inr ⟨q, later, names, globbed', inside⟩

theorem handlePatterns_added {patterns : List String}
    (done : handlePatterns fsys srcSet patterns = .ok found) :
    ∃ names, Added srcSet names found ∧ ∀ m, m ∈ names ↔ m ∈ fsys.matched patterns :=
  (Added.nil srcSet).patterns done

end Matches

section CheckFile

variable {fsys : FS Content} {fw : FileWalker Content} {name : String}

/-- Where there is a file, the walker function decides, unless the file fails to close. -/
theorem checkFile_found {f : File Content} (found : fsys.fileAt name = some f) :
    checkFile fsys fw name =
      ⟨(fw f.content).patterns, (fw f.content).cont, withDeferred (fw f.content).err f.close,
        .called name (fw f.content) :: (f.close.map WalkEvent.failed).toList⟩ := by
  unfold FS.fileAt at found
  split at found
  next => nomatch found
  next opened here =>
  split at found
  next => nomatch found
  next fi stat =>
  split at found
  next => nomatch found
  next notDir =>
  cases found
  simp only [checkFile, here, checkOpened, stat, if_neg notDir, List.singleton_append]

/-- Elsewhere nothing is called: the name is passed over, or something fails. -/
theorem checkFile_absent (absent : fsys.fileAt name = none) :
    checkFile fsys fw name = ⟨[], true, none, []⟩ ∨
      (checkFile fsys fw name).err ≠ none ∧ (checkFile fsys fw name).events ≠ [] ∧
        ∀ e ∈ (checkFile fsys fw name).events, ∃ err, e = .failed err := by
  unfold FS.fileAt at absent
  cases here : fsys.openFile name with
  | error err =>
    by_cases missing : err.notExist = true
    · left
      simp only [checkFile, here, if_pos missing]
    · right
      simp only [checkFile, here, if_neg missing]
      exact ⟨nofun, List.cons_ne_nil _ _, fun e member => ⟨err, List.mem_singleton.mp member⟩⟩
  | ok f =>
    simp only [here] at absent
    cases stat : f.stat with
    | error err =>
      right
      cases close : f.close with
      | none => simp [checkFile, here, checkOpened, stat, close, withDeferred]
      | some deferred => simp [checkFile, here, checkOpened, stat, close, withDeferred]
    | ok fi =>
      by_cases dir : fi = .dir
      · cases close : f.close with
        | none =>
          left
          simp [checkFile, here, checkOpened, stat, dir, close, withDeferred]
        | some deferred =>
          right
          simp [checkFile, here, checkOpened, stat, dir, close, withDeferred]
      · simp only [stat, if_neg dir] at absent
        nomatch absent

theorem withDeferred_eq_none {returned deferred : Option Failure} :
    withDeferred returned deferred = none ↔ returned = none ∧ deferred = none := by
  cases returned <;> cases deferred <;> simp [withDeferred]

theorem filesOf_append (trace more : List WalkEvent) :
    filesOf (trace ++ more) = filesOf trace ++ filesOf more := List.filterMap_append

theorem filesOf_failed {events : List WalkEvent} (failed : ∀ e ∈ events, ∃ err, e = .failed err) :
    filesOf events = [] := by
  apply List.filterMap_eq_nil_iff.mpr
  intro e member
  obtain ⟨err, rfl⟩ := failed e member
  rfl

theorem failed_toList (close : Option Failure) :
    ∀ e ∈ (close.map WalkEvent.failed).toList, ∃ err, e = .failed err := by
  intro e member
  obtain ⟨err, _, same⟩ := Option.map_eq_some_iff.mp (Option.mem_toList.mp member)
  exact ⟨err, same.symm⟩

theorem filesOf_checkFile :
    filesOf (checkFile fsys fw name).events = [name].filter fsys.isFile := by
  cases found : fsys.fileAt name with
  | some f =>
    have isFile : fsys.isFile name = true := by rw [FS.isFile, found, Option.isSome_some]
    rw [checkFile_found found, List.filter_cons_of_pos isFile, List.filter_nil]
    exact congrArg (name :: ·) (filesOf_failed (failed_toList f.close))
  | none =>
    have isFile : ¬ fsys.isFile name = true := by rw [FS.isFile, found]; exact nofun
    rw [List.filter_cons_of_neg isFile, List.filter_nil]
    rcases checkFile_absent found with same | ⟨_, _, failed⟩
    · rw [same]
      rfl
    · exact filesOf_failed failed

/-- A check without an error after which the walk goes on. -/
theorem checkFile_goes (succeeds : (checkFile fsys fw name).err = none)
    (cont : (checkFile fsys fw name).cont = true) :
    (∀ e ∈ (checkFile fsys fw name).events, e.Proceeds) ∧
      (checkFile fsys fw name).patterns = patternsOf fsys fw name := by
  cases found : fsys.fileAt name with
  | some f =>
    rw [checkFile_found found] at succeeds cont ⊢
    obtain ⟨returned, close⟩ := withDeferred_eq_none.mp succeeds
    simp only [close, Option.map_none, Option.toList_none, List.mem_singleton, forall_eq,
      patternsOf, found, and_true]
    exact ⟨returned, cont⟩
  | none =>
    rcases checkFile_absent found with same | ⟨fails, _⟩
    · rw [same, patternsOf, found]
      exact ⟨(fun _ member => nomatch member), rfl⟩
    · exact absurd succeeds fails

theorem checkFile_stops (succeeds : (checkFile fsys fw name).err = none)
    (cont : (checkFile fsys fw name).cont = false) :
    ∃ e, (checkFile fsys fw name).events = [e] ∧ e.Stops ∧ e.Closes fsys := by
  cases found : fsys.fileAt name with
  | some f =>
    rw [checkFile_found found] at succeeds cont ⊢
    obtain ⟨returned, close⟩ := withDeferred_eq_none.mp succeeds
    refine ⟨.called name (fw f.content), by rw [close]; rfl, ⟨returned, cont⟩, ?_⟩
    intro filename other same opened
    cases same
    rw [found] at opened
    exact Option.some.inj opened ▸ close
  | none =>
    rcases checkFile_absent found with same | ⟨fails, _⟩
    · rw [same] at cont
      nomatch cont
    · exact absurd succeeds fails

theorem checkFile_fails (fails : (checkFile fsys fw name).err ≠ none) :
    (∃ e ∈ (checkFile fsys fw name).events, ¬ e.Proceeds) ∧
      ∀ e ∈ (checkFile fsys fw name).events, e.Stops → ¬ e.Closes fsys := by
  cases found : fsys.fileAt name with
  | some f =>
    rw [checkFile_found found] at fails ⊢
    rw [ne_eq, withDeferred_eq_none, not_and] at fails
    constructor
    · by_cases returned : (fw f.content).err = none
      · obtain ⟨err, close⟩ := Option.ne_none_iff_exists'.mp (fails returned)
        refine ⟨.failed err, ?_, not_false⟩
        simp [close]
      · exact ⟨_, List.mem_cons_self, fun proceeds => returned proceeds.1⟩
    · intro e member stops closes
      rcases List.mem_cons.mp member with rfl | later
      · exact fails stops.1 (closes name f rfl found)
      · obtain ⟨err, rfl⟩ := failed_toList f.close e later
        exact stops
  | none =>
    rcases checkFile_absent found with same | ⟨_, nonempty, failed⟩
    · rw [same] at fails
      exact absurd rfl fails
    · constructor
      · obtain ⟨e, member⟩ := List.exists_mem_of_ne_nil _ nonempty
        obtain ⟨err, rfl⟩ := failed e member
        exact ⟨_, member, not_false⟩
      · intro e member stops
        obtain ⟨err, rfl⟩ := failed e member
        exact stops.elim

end CheckFile

section Walk

variable {fsys : FS Content} {fw : FileWalker Content} {initial : List String} {w : Walking}

/-- What the loop keeps: it searches the closure, and has called the walker function on the files
among the sources that it is done with, where nothing has failed or stopped it. -/
structure Walking.Sound (fsys : FS Content) (fw : FileWalker Content) (initial : List String)
    (w : Walking) : Prop where
  search : Search (fsys.matched initial) (included fsys fw) w.src w.i
  set : ∀ name, name ∈ w.srcSet ↔ name ∈ w.src
  files : filesOf w.trace = (w.src.take w.i).filter fsys.isFile
  proceeds : ∀ e ∈ w.trace, e.Proceeds

theorem walkRound_again {next : Walking} (goes : walkRound fsys fw w = .inl next) :
    ∃ filename found, w.src[w.i]? = some filename ∧ (checkFile fsys fw filename).err = none ∧
      (checkFile fsys fw filename).cont = true ∧
      handlePatterns fsys w.srcSet (checkFile fsys fw filename).patterns = .ok found ∧
      next = ⟨found.1, w.src ++ found.2, w.i + 1,
        w.trace ++ (checkFile fsys fw filename).events⟩ := by
  unfold walkRound at goes
  split at goes
  next => nomatch goes
  next filename here =>
  dsimp only at goes
  split at goes
  next => nomatch goes
  next succeeds =>
  split at goes
  next => nomatch goes
  next cont =>
  split at goes
  next => nomatch goes
  next srcSet subsrc done =>
  cases goes
  exact ⟨filename, (srcSet, subsrc), here, succeeds, by simpa using cont, done, rfl⟩

/-- The ways to leave the loop: no source is left, the check of one fails or stops the walk, or
one of the patterns that it returns is invalid. -/
inductive Leaves (fsys : FS Content) (fw : FileWalker Content) (w : Walking) : Walked → Prop where
  | done (all : w.src[w.i]? = none) : Leaves fsys fw w ⟨false, none, w.trace⟩
  | fails {filename : String} {err : WalkError} (here : w.src[w.i]? = some filename)
      (failed : (checkFile fsys fw filename).err = some err) :
      Leaves fsys fw w
        ⟨false, some (.checking filename err), w.trace ++ (checkFile fsys fw filename).events⟩
  | stops {filename : String} (here : w.src[w.i]? = some filename)
      (succeeds : (checkFile fsys fw filename).err = none)
      (cont : (checkFile fsys fw filename).cont = false) :
      Leaves fsys fw w ⟨true, none, w.trace ++ (checkFile fsys fw filename).events⟩
  | invalid {filename : String} {err : InvalidPattern} (here : w.src[w.i]? = some filename)
      (succeeds : (checkFile fsys fw filename).err = none)
      (cont : (checkFile fsys fw filename).cont = true) :
      Leaves fsys fw w ⟨false, some (.checking filename (.invalidPattern err)),
        w.trace ++ (checkFile fsys fw filename).events ++ [.failed err.err]⟩

theorem walkRound_leave {walked : Walked} (left : walkRound fsys fw w = .inr walked) :
    Leaves fsys fw w walked := by
  unfold walkRound at left
  split at left
  next all =>
    cases left
    exact .done all
  next filename here =>
  dsimp only at left
  split at left
  next err failed =>
    cases left
    exact .fails here failed
  next succeeds =>
  split at left
  next cont =>
    cases left
    exact .stops here succeeds (by simpa using cont)
  next cont =>
  split at left
  next =>
    cases left
    exact .invalid here succeeds (by simpa using cont)
  next => nomatch left

namespace Walking.Sound

theorem start {found : Finset String × List String}
    (done : handlePatterns fsys ∅ initial = .ok found) :
    Sound fsys fw initial ⟨found.1, found.2, 0, []⟩ := by
  obtain ⟨names, added, among⟩ := handlePatterns_added done
  have set : ∀ name, name ∈ found.1 ↔ name ∈ found.2 := by
    intro name
    rw [added.set, or_iff_right (Finset.notMem_empty name)]
  constructor
  · constructor
    · exact Grounded.nil.append fun name member => .inl ((among name).mp (added.sound name member))
    · exact added.nodup
    · exact fun name root => (set name).mp (added.all name ((among name).mpr root))
    · exact fun _ member => nomatch member
  · exact set
  · rfl
  · exact fun _ member => nomatch member

/-- The files of a check come to those of the sources before it. -/
theorem filesOf_events (sound : Sound fsys fw initial w) {filename : String}
    (here : w.src[w.i]? = some filename) :
    filesOf (w.trace ++ (checkFile fsys fw filename).events) =
      (w.src.take (w.i + 1)).filter fsys.isFile := by
  rw [filesOf_append, sound.files, filesOf_checkFile, ← List.filter_append, List.take_add_one, here,
    Option.toList_some]

theorem next {next : Walking} (sound : Sound fsys fw initial w)
    (goes : walkRound fsys fw w = .inl next) : Sound fsys fw initial next := by
  obtain ⟨filename, found, here, succeeds, cont, done, rfl⟩ := walkRound_again goes
  obtain ⟨proceeds, patterns⟩ := checkFile_goes succeeds cont
  obtain ⟨names, added, among⟩ := handlePatterns_added done
  rw [patterns] at among
  have inList : w.i < w.src.length := (List.getElem?_eq_some_iff.mp here).1
  constructor
  · apply sound.search.advance here added.nodup
    · exact fun name member known => added.fresh name member ((sound.set name).mpr known)
    · exact fun name member => (among name).mp (added.sound name member)
    · intro name successor
      rcases (added.set name).mp (added.all name ((among name).mpr successor)) with known | fresh
      · exact .inl ((sound.set name).mp known)
      · exact .inr fresh
  · intro name
    rw [added.set, sound.set, List.mem_append]
  · rw [sound.filesOf_events here]
    exact congrArg _ (List.take_append_of_le_length inList).symm
  · intro e member
    rcases List.mem_append.mp member with before | now
    · exact sound.proceeds e before
    · exact proceeds e now

theorem within (sound : Sound fsys fw initial w) {names : Finset String}
    (finite : ∀ pattern found, fsys.glob pattern = .ok found → ∀ name ∈ found, name ∈ names) :
    ∀ name ∈ w.src, name ∈ names := by
  intro name member
  have within : ∀ patterns, ∀ name ∈ fsys.matched patterns, name ∈ names := by
    intro patterns name ⟨pattern, _, found, globbed, inside⟩
    exact finite pattern found globbed name inside
  exact (sound.search.grounded.reached name member).least {name | name ∈ names} (within initial)
    fun _ _ => within _

end Walking.Sound

theorem WalkEvent.Proceeds.not_stops {e : WalkEvent} (proceeds : e.Proceeds) : ¬ e.Stops := by
  cases e with
  | called filename returned =>
    intro stops
    nomatch proceeds.2.symm.trans stops.2
  | failed err => exact not_false

theorem WalkEvent.Proceeds.not_fails {e : WalkEvent} (proceeds : e.Proceeds) : ¬ e.Fails := by
  cases e with
  | called filename returned => exact not_not_intro proceeds.1
  | failed err => exact proceeds.elim

theorem not_stopped {trace : List WalkEvent} (quiet : ∀ e ∈ trace, e.Stops → ¬ e.Closes fsys) :
    ¬ Stopped fsys trace := by
  intro ⟨before, e, after, same, _, stops, closes⟩
  exact quiet e (same ▸ List.mem_append_right _ List.mem_cons_self) stops closes

/-- A walk that did not get to the end of its sources. -/
theorem Visits.of_take {walked : Walked} {src : List String} {i : Nat} (nodup : src.Nodup)
    (files : filesOf walked.trace = (src.take i).filter fsys.isFile)
    (ended : ¬ ∀ e ∈ walked.trace, e.Proceeds) (stopped : walked.ok = true ↔ Stopped fsys walked.trace) :
    Visits fsys fw initial walked where
  once := files ▸ (nodup.sublist (List.take_sublist _ _)).filter _
  files _ member := (List.mem_filter.mp (files ▸ member)).2
  closure proceeds := absurd proceeds ended
  order proceeds := absurd proceeds ended
  stopped := stopped

theorem Walking.Sound.done (sound : Sound fsys fw initial w) (all : w.src[w.i]? = none) :
    Visits fsys fw initial ⟨false, none, w.trace⟩ := by
  have files : filesOf w.trace = w.src.filter fsys.isFile := by
    rw [sound.files, List.take_of_length_le (List.getElem?_eq_none_iff.mp all)]
  constructor
  · exact files ▸ sound.search.nodup.filter _
  · exact fun name member => (List.mem_filter.mp (files ▸ member)).2
  · intro _ _
    rw [files, List.mem_filter, sound.search.mem_iff_reached all]
    rfl
  · intro _ through isThrough name isName only
    rw [files] at isThrough isName ⊢
    obtain ⟨_, throughFile⟩ := List.mem_filter.mp isThrough
    obtain ⟨member, nameFile⟩ := List.mem_filter.mp isName
    have behind := (sound.search.grounded.behind member only.2).filter fsys.isFile
    rwa [List.filter_cons_of_pos throughFile, List.filter_cons_of_pos nameFile,
      List.filter_nil] at behind
  · constructor
    · exact nofun
    · intro stopped
      refine absurd stopped (not_stopped fun e member stops => ?_)
      exact absurd stops (sound.proceeds e member).not_stops

theorem Walking.Sound.leaves {walked : Walked} (sound : Sound fsys fw initial w)
    (leaves : Leaves fsys fw w walked) : Visits fsys fw initial walked := by
  have quiet : ∀ e ∈ w.trace, e.Stops → ¬ e.Closes fsys := fun e member stops =>
    absurd stops (sound.proceeds e member).not_stops
  cases leaves with
  | done all => exact sound.done all
  | fails here failed =>
    obtain ⟨⟨e, member, ends⟩, silent⟩ := checkFile_fails (failed ▸ Option.some_ne_none _)
    apply Visits.of_take sound.search.nodup (sound.filesOf_events here)
    · exact fun proceeds => ends (proceeds e (List.mem_append_right _ member))
    · refine ⟨nofun, fun stopped => absurd stopped (not_stopped fun e member => ?_)⟩
      rcases List.mem_append.mp member with before | now
      · exact quiet e before
      · exact silent e now
  | stops here succeeds cont =>
    obtain ⟨e, alone, stops, closes⟩ := checkFile_stops succeeds cont
    have files := sound.filesOf_events here
    rw [alone] at files ⊢
    apply Visits.of_take sound.search.nodup files
    · intro proceeds
      exact (proceeds e (List.mem_append_right _ (List.mem_singleton_self e))).not_stops stops
    · exact iff_of_true rfl
        ⟨w.trace, e, [], rfl, fun _ member => (sound.proceeds _ member).not_fails, stops, closes⟩
  | @invalid filename err here succeeds cont =>
    obtain ⟨proceeds, _⟩ := checkFile_goes succeeds cont
    have files := sound.filesOf_events here
    rw [← List.append_nil (filesOf _)] at files
    apply Visits.of_take sound.search.nodup ((filesOf_append _ _).trans files)
    · exact fun proceeds => proceeds _ (List.mem_append_right _ (List.mem_singleton_self _))
    · refine ⟨nofun, fun stopped => absurd stopped (not_stopped fun e member => ?_)⟩
      rcases List.mem_append.mp member with before | last
      · rcases List.mem_append.mp before with before | now
        · exact quiet e before
        · exact fun stops => absurd stops (proceeds e now).not_stops
      · exact fun stops => absurd stops (List.mem_singleton.mp last ▸ not_false)

/-- Each round is done with one more name, so the loop leaves. -/
theorem Walking.Sound.terminates (sound : Sound fsys fw initial w) {names : Finset String}
    (finite : ∀ pattern found, fsys.glob pattern = .ok found → ∀ name ∈ found, name ∈ names)
    {fuel : Nat} (enough : names.card < fuel) :
    ∃ walked, run (walkRound fsys fw) fuel w = some walked := by
  let done (w : Walking) : Finset String := (w.src.take w.i).toFinset
  have grows : ∀ w next, Sound fsys fw initial w → walkRound fsys fw w = .inl next →
      Sound fsys fw initial next ∧ ∃ name ∈ names, name ∉ done w ∧ done next = insert name (done w) := by
    intro w next sound goes
    refine ⟨sound.next goes, ?_⟩
    obtain ⟨filename, found, here, _, _, _, rfl⟩ := walkRound_again goes
    have inList : w.i < w.src.length := (List.getElem?_eq_some_iff.mp here).1
    refine ⟨filename, sound.within finite _ (List.mem_of_getElem? here), ?_, ?_⟩
    · exact fun earlier => sound.search.next_new here (List.mem_toFinset.mp earlier)
    · ext name
      simp only [done, List.take_append_of_le_length (Nat.succ_le_of_lt inList), List.take_add_one,
        here, Option.toList_some, List.mem_toFinset, List.mem_append, List.mem_singleton,
        Finset.mem_insert]
      exact or_comm
  obtain ⟨walked, ran⟩ := run_of_seen names done (Sound fsys fw initial) grows sound
  have fewer : (names \ done w).card ≤ names.card := Finset.card_le_card Finset.sdiff_subset
  exact ⟨walked, run_mono ran (by omega)⟩

/-- With finitely many names that patterns can match, a walk ends after a round for each of them
at most, and it has visited the closure. -/
theorem walk_visits (fsys : FS Content) (fw : FileWalker Content) (initial : List String)
    (names : Finset String)
    (finite : ∀ pattern found, fsys.glob pattern = .ok found → ∀ name ∈ found, name ∈ names)
    {fuel : Nat} (enough : names.card < fuel) :
    ∃ walked, walk fsys fw initial fuel = some walked ∧ Visits fsys fw initial walked := by
  unfold walk
  split
  next err failed =>
    have silent : ¬ Stopped fsys [.failed err.err] := not_stopped fun e member stops =>
      absurd stops (List.mem_singleton.mp member ▸ not_false)
    have nothing : ([] : List String).Nodup := .nil
    refine ⟨_, rfl, Visits.of_take (i := 0) nothing rfl ?_ ?_⟩
    · exact fun proceeds => proceeds _ (List.mem_singleton_self _)
    · exact ⟨nofun, fun stopped => absurd stopped silent⟩
  next srcSet src done =>
    have sound : Walking.Sound fsys fw initial ⟨srcSet, src, 0, []⟩ := .start done
    obtain ⟨walked, ran⟩ := sound.terminates finite enough
    refine ⟨walked, ran, ?_⟩
    exact (ends_iff_run.mpr ⟨_, ran⟩).post (Walking.Sound fsys fw initial) _ sound
      (fun _ _ sound goes => sound.next goes) fun _ _ sound left => sound.leaves (walkRound_leave left)

end Walk

section Examples

/-- A file system with two files and a directory, where the files hold patterns. -/
private def twoFiles : FS (List String) where
  openFile name :=
    if name = "hosts" then .ok ⟨.ok .regular, ["hosts.d", "hosts.local"], none⟩
    else if name = "hosts.local" then .ok ⟨.ok .regular, ["hosts*"], none⟩
    else if name = "hosts.d" then .ok ⟨.ok .dir, [], none⟩
    else .error ⟨"file does not exist", true⟩
  glob p :=
    if p = "hosts*" then .ok ["hosts", "hosts.d", "hosts.local"]
    else .ok ([p].filter (· ∈ ["hosts", "hosts.d", "hosts.local"]))

theorem walk_visits_twoFiles :
    ∃ walked, walk twoFiles (fun patterns => ⟨patterns, true, none⟩) ["hosts"] 4 = some walked ∧
      Visits twoFiles (fun patterns => ⟨patterns, true, none⟩) ["hosts"] walked := by
  apply walk_visits _ _ _ {"hosts", "hosts.d", "hosts.local"}
  · intro pattern found globbed name member
    unfold twoFiles at globbed
    dsimp only at globbed
    split at globbed
    next =>
      cases globbed
      simpa using member
    next =>
      cases globbed
      simpa using (List.mem_filter.mp member).2
  · decide

/-- The only file of a file system, which may be of any type and fail to close. -/
private def onlyFile (type : FileType) (close : Option Failure) : FS PUnit.{1} where
  openFile name :=
    if name = "conf" then .ok ⟨.ok type, ⟨⟩, close⟩ else .error ⟨"file does not exist", true⟩
  glob p := if p = "conf" ∨ p = "*" then .ok ["conf"] else .ok []

private theorem onlyFile_finite {type : FileType} {close : Option Failure} :
    ∀ pattern found, (onlyFile type close).glob pattern = .ok found →
      ∀ name ∈ found, name ∈ ({"conf"} : Finset String) := by
  intro pattern found globbed name member
  unfold onlyFile at globbed
  dsimp only at globbed
  split at globbed
  next =>
    cases globbed
    simpa using member
  next =>
    cases globbed
    nomatch member

/-- A regular file, as `FileMode.IsRegular` has it. -/
private def FS.isRegular (fsys : FS PUnit.{1}) (name : String) : Bool :=
  match fsys.openFile name with
  | .ok ⟨.ok .regular, _, _⟩ => true
  | _ => false

/-- A named pipe is no regular file, but the walker function is called on it; and where the file of
the call that stops the walk fails to close, the walk returns that error and false. -/
theorem pipe_is_walked_and_close_decides :
    ¬ (∀ (fsys : FS PUnit.{1}) (fw : FileWalker PUnit.{1}) (initial : List String)
        (names : Finset String),
      (∀ pattern found, fsys.glob pattern = .ok found → ∀ name ∈ found, name ∈ names) →
      ∀ fuel walked, walk fsys fw initial fuel = some walked →
        (∀ e ∈ walked.trace, e.Proceeds) → ∀ name, name ∈ filesOf walked.trace ↔
          Closure fsys fw initial name ∧ fsys.isRegular name = true) ∧
    ¬ ∀ (fsys : FS PUnit.{1}) (fw : FileWalker PUnit.{1}) (initial : List String)
        (names : Finset String),
      (∀ pattern found, fsys.glob pattern = .ok found → ∀ name ∈ found, name ∈ names) →
      ∀ fuel walked, walk fsys fw initial fuel = some walked →
        (walked.ok = true ↔ ∃ before e after, walked.trace = before ++ e :: after ∧
          (∀ earlier ∈ before, ¬ earlier.Fails) ∧ e.Stops) := by
  constructor
  · intro claimed
    have regular := claimed (onlyFile .namedPipe none) (fun _ => ⟨[], true, none⟩) ["conf"] {"conf"}
      onlyFile_finite 2 ⟨false, none, [.called "conf" ⟨[], true, none⟩]⟩ rfl
      (fun e member => List.mem_singleton.mp member ▸ ⟨rfl, rfl⟩) "conf"
    exact Bool.false_ne_true (regular.mp (List.mem_singleton_self _)).2
  · intro claimed
    have closed : Failure := ⟨"file already closed", false⟩
    have stopped := claimed (onlyFile .regular (some closed)) (fun _ => ⟨[], false, none⟩) ["conf"]
      {"conf"} onlyFile_finite 2 ⟨false, some (.checking "conf" (.deferred closed)),
        [.called "conf" ⟨[], false, none⟩, .failed closed]⟩ rfl
    exact Bool.false_ne_true (stopped.mpr ⟨[], _, _, rfl, fun _ member => (by cases member), rfl, rfl⟩)

end Examples

end AdGuardHome.Aghos
