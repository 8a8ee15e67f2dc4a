import AdGuardHome.Updater.Update

namespace AdGuardHome

namespace Updater

universe v w

section paths

variable {workDir path : Path} {x name : String}

theorem join_sub (workDir : Path) (x name : String) :
    join (workDir ++ [x]) name = workDir ∨ workDir ++ [x] <+: join (workDir ++ [x]) name := by
  unfold join
  split
  · exact .inr (List.prefix_refl _)
  split
  · exact .inl List.dropLast_concat
  · exact .inr (List.prefix_append _ _)

theorem ne_join_sub (outside : path ≠ workDir) (apart : ¬ workDir ++ [x] <+: path) :
    path ≠ join (workDir ++ [x]) name := by
  rintro rfl
  rcases join_sub workDir x name with above | inside
  · exact outside above
  · exact apart inside

theorem join_length (dir : Path) (name : String) : (join dir name).length ≤ dir.length + 1 := by
  unfold join
  split
  · exact Nat.le_succ _
  split
  · rw [List.length_dropLast]
    omega
  · simp

theorem join_eq_append_iff {dir : Path} {name plain : String} (named : plain ≠ "." ∧ plain ≠ "/" ∧ plain ≠ "..") :
    join dir name = dir ++ [plain] ↔ name = plain := by
  unfold join
  split
  · rename_i special
    constructor
    · intro same
      exact absurd (congrArg List.length same) (by simp)
    · rintro rfl
      simp [named] at special
  split
  · rename_i special
    constructor
    · intro same
      have lengths := congrArg List.length same
      rw [List.length_dropLast, List.length_append, List.length_singleton] at lengths
      omega
    · rintro rfl
      exact absurd special named.2.2
  · simp

end paths

namespace Disk

variable {disk : Disk} {path src dst : Path}

theorem set_self (disk : Disk) (path : Path) (file : Option Content) :
    disk.set path file path = file := by
  rw [set, Function.update_self]

theorem set_ne (other : path ≠ dst) (file : Option Content) : disk.set dst file path = disk path := by
  rw [set, Function.update_of_ne other]

theorem writeFile_ne (other : path ≠ dst) (data : Content) (writing : Writing) :
    (disk.writeFile dst data writing).1 path = disk path := by
  cases writing with
  | written => exact set_ne other _
  | notOpened failure => rfl
  | broken left => exact set_ne other _

theorem writeFile_ok {data : Content} {writing : Writing} {after : Disk}
    (passed : disk.writeFile dst data writing = (after, .ok ())) :
    after dst = some data := by
  cases writing with
  | written =>
    cases passed
    exact set_self _ _ _
  | notOpened failure => cases passed
  | broken left => cases passed

theorem copyFile_ok {copying : Copying} {after : Disk}
    (passed : disk.copyFile src dst copying = (after, .ok ())) :
    ∃ data, disk src = some data ∧ after dst = some data := by
  unfold copyFile at passed
  split at passed
  · cases passed
  split at passed
  · cases passed
  · rename_i data here
    exact ⟨data, here, writeFile_ok passed⟩

theorem copyFile_ne (other : path ≠ dst) (copying : Copying) :
    (disk.copyFile src dst copying).1 path = disk path := by
  unfold copyFile
  split
  · rfl
  split
  · rfl
  · exact writeFile_ne other _ _

end Disk

def Keeps {α : Type v} (path : Path) (step : Step α) : Prop := ∀ disk, (step disk).1 path = disk path

namespace Step

variable {α : Type v} {β : Type w} {path : Path} {second : α → Step β} {first : Step α}

theorem andThen_ok {disk after : Disk} {b : β}
    (passed : first.andThen second disk = (after, .ok b)) :
    ∃ between a, first disk = (between, .ok a) ∧ second a between = (after, .ok b) := by
  unfold andThen at passed
  split at passed
  · cases passed
  · rename_i between a here
    exact ⟨between, a, here, passed⟩

/-- The second step only has to keep the file for the values that the first one returns. -/
theorem keeps_andThen_of (values : α → Prop) (keeps : Keeps path first)
    (returns : ∀ disk after a, first disk = (after, .ok a) → values a)
    (later : ∀ a, values a → Keeps path (second a)) : Keeps path (first.andThen second) := by
  intro disk
  have before := keeps disk
  unfold andThen
  split
  · rename_i between stage here
    rwa [here] at before
  · rename_i between a here
    rw [later a (returns disk between a here) between]
    rwa [here] at before

theorem keeps_andThen (keeps : Keeps path first)
    (later : ∀ a, Keeps path (second a)) : Keeps path (first.andThen second) :=
  keeps_andThen_of (fun _ => True) keeps (fun _ _ _ _ => trivial) fun a _ => later a

theorem keeps_ofResult {operation : Disk → Disk × Except Failure Unit} (stage : Stage)
    (keeps : ∀ disk, (operation disk).1 path = disk path) : Keeps path (ofResult stage operation) :=
  keeps

theorem keeps_skip (value : α) : Keeps path fun disk => (disk, .ok value) := fun _ => rfl

theorem andThen_assoc {γ : Type w} (first : Step α) (second : α → Step β) (third : β → Step γ) :
    (first.andThen second).andThen third = first.andThen fun a => (second a).andThen third := by
  funext disk
  unfold andThen
  cases first disk with
  | mk between result =>
    cases result with
    | error stage => rfl
    | ok a => rfl

end Step

/-- The content of the last file with a name among the entries, or what was found before. -/
def lastFile (isFile : Entry → Bool) (name : String) (entries : List Entry)
    (found : Option Content) : Option Content :=
  entries.foldl (fun found e => if isFile e && e.name == name then some e.content else found) found

variable {content : Content} {old : Content}

/-- A file among the entries hides what was found before. -/
theorem lastFile_some {isFile : Entry → Bool} {name : String} {entries : List Entry}
    (here : lastFile isFile name entries none = some content)
    (found : Option Content) : lastFile isFile name entries found = some content := by
  induction entries generalizing found with
  | nil => cases here
  | cons e rest ih =>
    unfold lastFile at here ⊢
    rw [List.foldl_cons] at here ⊢
    split at here
    · rename_i named
      rwa [if_pos named]
    · exact ih here _

section entries

variable {disk : Disk} {outDir path : Path} {isDir isFile : Bool} {e : Entry} {x : Extraction}

theorem unpackEntry_ne (other : isDir = false → isFile = true → path ≠ join outDir e.name) :
    (unpackEntry disk outDir isDir isFile e x).disk path = disk path := by
  unfold unpackEntry
  dsimp only
  split
  · rfl
  split
  · split
    · rfl
    · rfl
  rename_i file
  split
  · rfl
  rename_i regular
  have other := other (by simpa using file) (by simpa using regular)
  cases x with
  | done => exact Disk.set_ne other _
  | notOpened => rfl
  | cut left => exact Disk.set_ne other _
  | notClosed left => exact Disk.set_ne other _

theorem unpackEntry_name :
    (unpackEntry disk outDir isDir isFile e x).name = "" ∨
      (unpackEntry disk outDir isDir isFile e x).name = e.name ∧ isDir = false ∧ isFile = true := by
  unfold unpackEntry
  dsimp only
  split
  · exact .inl rfl
  split
  · split
    · exact .inl rfl
    · exact .inl rfl
  rename_i file
  split
  · exact .inl rfl
  rename_i regular
  have kind : isDir = false ∧ isFile = true := ⟨by simpa using file, by simpa using regular⟩
  cases x with
  | done => exact .inr ⟨rfl, kind⟩
  | notOpened => exact .inl rfl
  | cut left => exact .inl rfl
  | notClosed left => exact .inr ⟨rfl, kind⟩

/-- What is at a plain name in the directory after an entry that is extracted if it is a file. -/
theorem unpackEntry_plain {plain : String}
    (named : plain ≠ "" ∧ plain ≠ "." ∧ plain ≠ "/" ∧ plain ≠ "..")
    (done : isDir = false → isFile = true → x = .done) :
    (unpackEntry disk outDir isDir isFile e x).disk (outDir ++ [plain]) =
      if !isDir && isFile && e.name == plain then some e.content else disk (outDir ++ [plain]) := by
  by_cases here : e.name = plain
  · subst here
    have place : join outDir e.name = outDir ++ [e.name] := (join_eq_append_iff named.2).mpr rfl
    unfold unpackEntry
    cases isDir with
    | true =>
      simp only [named.1, ↓reduceIte, Bool.not_true, Bool.false_and, Bool.false_eq_true]
      split
      · rfl
      · rfl
    | false =>
      cases isFile with
      | false => simp [named.1]
      | true => simp [named.1, done rfl rfl, place, Disk.set_self]
  · have other : outDir ++ [plain] ≠ join outDir e.name :=
      fun same => here ((join_eq_append_iff named.2).mp same.symm)
    rw [unpackEntry_ne fun _ _ => other]
    simp [here]

variable {z : ZipExtraction}

theorem unpackZipFile_disk (opened : z.opened = true) :
    (unpackZipFile disk outDir e z).disk =
      (unpackEntry disk outDir (e.kind == .dir) true e z.extraction).disk := by
  simp [unpackZipFile, opened]

theorem unpackZipFile_ne (other : e.kind ≠ .dir → path ≠ join outDir e.name) :
    (unpackZipFile disk outDir e z).disk path = disk path := by
  cases opened : z.opened with
  | false => simp [unpackZipFile, opened]
  | true =>
    rw [unpackZipFile_disk opened, unpackEntry_ne fun file _ => other (by simpa using file)]

theorem unpackZipFile_name :
    (unpackZipFile disk outDir e z).name = "" ∨
      (unpackZipFile disk outDir e z).name = e.name ∧ e.kind ≠ .dir := by
  cases opened : z.opened with
  | false => simp [unpackZipFile, opened]
  | true =>
    simpa [unpackZipFile, opened] using
      @unpackEntry_name disk outDir (e.kind == .dir) true e z.extraction

theorem unpackZipFile_done (passed : (unpackZipFile disk outDir e z).failed = false) :
    z.opened = true ∧ (e.kind ≠ .dir → e.name ≠ "" → z.extraction = .done) := by
  unfold unpackZipFile at passed
  split at passed
  · cases passed
  rename_i opened
  refine ⟨by simpa using opened, ?_⟩
  intro file named
  rw [Bool.or_eq_false_iff] at passed
  have passed := passed.1
  unfold unpackEntry at passed
  simp only [named, ↓reduceIte, beq_iff_eq, file, Bool.not_true, Bool.false_eq_true] at passed
  cases extraction : z.extraction with
  | done => rfl
  | notOpened => simp [extraction] at passed
  | cut left => simp [extraction] at passed
  | notClosed left => simp [extraction] at passed

end entries

variable {files : List String} {disk after : Disk}

theorem mem_listName {name other : String} (member : other ∈ listName name files) :
    other = name ∧ name ≠ "" ∨ other ∈ files := by
  unfold listName at member
  split at member
  · rename_i named
    rcases List.mem_cons.mp member with rfl | later
    · exact .inl ⟨rfl, named⟩
    · exact .inr later
  · exact .inr member

section loops

variable {disk : Disk} {outDir path : Path} {entries : List (Entry × Extraction)}

theorem unpackTarGzLoop_ne
    (other : ∀ entry ∈ entries, entry.1.kind = .regular → path ≠ join outDir entry.1.name) :
    (unpackTarGzLoop outDir entries disk).1 path = disk path := by
  induction entries generalizing disk with
  | nil => rfl
  | cons entry rest ih =>
    obtain ⟨here, later⟩ := List.forall_mem_cons.mp other
    exact (ih later).trans (unpackEntry_ne fun _ file => here (by simpa using file))

theorem unpackTarGzLoop_files :
    ∀ name ∈ (unpackTarGzLoop outDir entries disk).2,
      ∃ entry ∈ entries, entry.1.kind = .regular ∧ entry.1.name = name := by
  induction entries generalizing disk with
  | nil => simp [unpackTarGzLoop]
  | cons entry rest ih =>
    intro name member
    rcases mem_listName member with ⟨rfl, named⟩ | later
    · rcases unpackEntry_name with empty | ⟨own, _, file⟩
      · exact absurd empty named
      · exact ⟨entry, .head rest, by simpa using file, own.symm⟩
    · obtain ⟨entry, inside, same⟩ := ih name later
      exact ⟨entry, .tail _ inside, same⟩

/-- The directory after a .tar.gz archive whose regular files are all extracted. -/
theorem unpackTarGzLoop_plain {plain : String}
    (named : plain ≠ "" ∧ plain ≠ "." ∧ plain ≠ "/" ∧ plain ≠ "..")
    (done : ∀ entry ∈ entries, entry.1.kind = .regular → entry.2 = .done) :
    (unpackTarGzLoop outDir entries disk).1 (outDir ++ [plain]) =
      lastFile (·.kind == .regular) plain (entries.map Prod.fst) (disk (outDir ++ [plain])) := by
  induction entries generalizing disk with
  | nil => rfl
  | cons entry rest ih =>
    obtain ⟨here, later⟩ := List.forall_mem_cons.mp done
    refine (ih later).trans ?_
    have kept : (unpackTarGzFile disk outDir entry.1 entry.2).disk (outDir ++ [plain]) =
        if entry.1.kind == .regular && entry.1.name == plain then some entry.1.content
        else disk (outDir ++ [plain]) := by
      rw [unpackTarGzFile, unpackEntry_plain named fun _ file => here (by simpa using file)]
      cases entry.1.kind with
      | dir => rfl
      | regular => rfl
      | other => rfl
    rw [kept]
    rfl

theorem unpackZipLoop_ne {entries : List (Entry × ZipExtraction)}
    (other : ∀ entry ∈ entries, entry.1.kind ≠ .dir → path ≠ join outDir entry.1.name) :
    (unpackZipLoop outDir entries disk).1 path = disk path := by
  induction entries generalizing disk with
  | nil => rfl
  | cons entry rest ih =>
    obtain ⟨here, later⟩ := List.forall_mem_cons.mp other
    unfold unpackZipLoop
    dsimp only
    split
    · exact unpackZipFile_ne here
    · exact (ih later).trans (unpackZipFile_ne here)

theorem unpackZipLoop_files {entries : List (Entry × ZipExtraction)} {files : List String}
    (passed : (unpackZipLoop outDir entries disk).2 = some files) :
    ∀ name ∈ files, ∃ entry ∈ entries, entry.1.kind ≠ .dir ∧ entry.1.name = name := by
  induction entries generalizing disk files with
  | nil =>
    obtain rfl : [] = files := Option.some.inj passed
    simp
  | cons entry rest ih =>
    unfold unpackZipLoop at passed
    dsimp only at passed
    split at passed
    · cases passed
    obtain ⟨others, later, rfl⟩ := Option.map_eq_some_iff.mp passed
    intro name member
    rcases mem_listName member with ⟨rfl, named⟩ | behind
    · rcases unpackZipFile_name with empty | ⟨own, file⟩
      · exact absurd empty named
      · exact ⟨entry, .head rest, file, own.symm⟩
    · obtain ⟨entry, inside, same⟩ := ih later name behind
      exact ⟨entry, .tail _ inside, same⟩

/-- The directory after a .zip archive that is extracted without an error. -/
theorem unpackZipLoop_plain {entries : List (Entry × ZipExtraction)} {files : List String}
    {plain : String} (named : plain ≠ "" ∧ plain ≠ "." ∧ plain ≠ "/" ∧ plain ≠ "..")
    (passed : (unpackZipLoop outDir entries disk).2 = some files) :
    (unpackZipLoop outDir entries disk).1 (outDir ++ [plain]) =
      lastFile (·.kind != .dir) plain (entries.map Prod.fst) (disk (outDir ++ [plain])) := by
  induction entries generalizing disk files with
  | nil => rfl
  | cons entry rest ih =>
    unfold unpackZipLoop at passed ⊢
    dsimp only at passed ⊢
    split at passed
    · cases passed
    rename_i fine
    obtain ⟨others, later, _⟩ := Option.map_eq_some_iff.mp passed
    rw [if_neg fine]
    refine (ih later).trans ?_
    obtain ⟨opened, done⟩ := unpackZipFile_done (by simpa using fine)
    have kept : (unpackZipFile disk outDir entry.1 entry.2).disk (outDir ++ [plain]) =
        if entry.1.kind != .dir && entry.1.name == plain then some entry.1.content
        else disk (outDir ++ [plain]) := by
      rw [unpackZipFile_disk opened]
      by_cases same : entry.1.name = plain
      · rw [unpackEntry_plain named fun file _ =>
          done (by simpa using file) (by rw [same]; exact named.1)]
        simp [bne]
      · have other : outDir ++ [plain] ≠ join outDir entry.1.name :=
          fun place => same ((join_eq_append_iff named.2).mp place.symm)
        rw [unpackEntry_ne fun _ _ => other]
        simp [same]
    rw [kept]
    rfl

theorem copySupportingFiles_ne {srcdir dstdir : Path} {files : List String} {copying : Nat → Copying}
    (other : ∀ name ∈ files, isSkipped name = false → path ≠ join dstdir name) :
    (copySupportingFiles srcdir dstdir files copying disk).1 path = disk path := by
  induction files generalizing copying disk with
  | nil => rfl
  | cons name rest ih =>
    obtain ⟨here, later⟩ := List.forall_mem_cons.mp other
    unfold copySupportingFiles
    dsimp only
    split
    · exact ih later
    rename_i copied
    have kept : (disk.copyFile (join srcdir name) (join dstdir name) (copying 0)).1 path =
        disk path := Disk.copyFile_ne (here (by simpa using copied)) _
    split
    · rename_i after attempt
      rwa [attempt] at kept
    · rename_i after result _ attempt
      rw [attempt] at kept
      exact (ih later).trans kept

end loops

variable (u : Updater) (o : Outcomes) (firstRun : Bool)

/-- The executable of the package: the last of its files with the name. -/
def executable : Option Content :=
  match format u.packageName with
  | .zip => lastFile (·.kind != .dir) u.updateExe (o.zip.entries.map Prod.fst) none
  | .tarGz => lastFile (·.kind == .regular) u.updateExe (o.tarGz.entries.map Prod.fst) none
  | .raw => o.response

def Extracted : Prop :=
  match format u.packageName with
  | .zip => ∀ entry ∈ o.zip.entries, entry.1.kind = .regular →
      entry.2.opened = true ∧ entry.2.extraction = .done
  | .tarGz => ∀ entry ∈ o.tarGz.entries, entry.1.kind = .regular → entry.2 = .done
  | .raw => True

/-- The names of the files in the package. -/
def entryNames : List String :=
  match format u.packageName with
  | .zip => (o.zip.entries.filter (·.1.kind != .dir)).map (·.1.name)
  | .tarGz => (o.tarGz.entries.filter (·.1.kind == .regular)).map (·.1.name)
  | .raw => []

/-- An update that fails leaves the executable as it was, and one that ends well puts the
executable of a completely extracted package in its place. -/
structure AllOrNothing (before after : Disk) (result : Except Stage Unit) : Prop where
  failed : result ≠ .ok () → after u.execPath = before u.execPath
  succeeded : result = .ok () →
    (∃ content, u.executable o = some content ∧ after u.execPath = some content) ∧ u.Extracted o

/-- No step writes to the executable but those that replace it, and the clean-up keeps it. -/
structure Apart : Prop where
  package : u.execPath ≠ u.packagePath
  unpacked : ∀ name ∈ u.entryNames o, u.execPath ≠ join u.updateDir name
  update : u.execPath ≠ u.updateExeName
  checked : firstRun = false → u.execPath ≠ u.updateDir ++ ["AdGuardHome.yaml"]
  conf : firstRun = false → u.execPath ≠ u.backupDir ++ ["AdGuardHome.yaml"]
  backup : u.execPath ≠ u.backupExeName
  supporting : ∀ name ∈ u.entryNames o, isSkipped name = false →
    u.execPath ≠ join u.backupDir name ∧ u.execPath ≠ join u.workDir name
  stays : u.updateDir.isPrefixOf u.execPath = true → o.removed u.execPath = false

/-- The steps of an update from the check of the configuration to the copies of the supporting
files. -/
def checkAndCopy (files : List String) : Step Unit :=
  Step.andThen (if firstRun then fun disk => (disk, .ok ()) else u.check o) fun _ =>
    (u.backup o firstRun files).andThen fun _ =>
      .ofResult .replacing (copySupportingFiles u.updateDir u.workDir files o.supported)

/-- The steps of an update behind the deferred `clean`, up to the same copies. -/
def reach : Step Unit :=
  (u.downloadPackageFile o).andThen fun _ => (u.unpack o).andThen (u.checkAndCopy o firstRun)

theorem updatePrepared_eq :
    u.updatePrepared o firstRun = (u.reach o firstRun).andThen fun _ => u.replaceExecutable o := by
  simp only [updatePrepared, reach, checkAndCopy, replace, Step.andThen_assoc]

theorem unpack_files (passed : u.unpack o disk = (after, .ok files)) :
    ∀ name ∈ files, isSkipped name = true ∨ name ∈ u.entryNames o := by
  unfold unpack at passed
  unfold entryNames
  cases kind : format u.packageName with
  | zip =>
    simp only [kind, unpackZip] at passed
    split at passed
    · cases passed
    split at passed
    · cases loop : (unpackZipLoop u.updateDir o.zip.entries disk).2 with
      | none => simp [loop] at passed
      | some listed =>
        obtain ⟨_, rfl⟩ : _ ∧ listed = files := by simpa [loop] using passed
        intro name member
        obtain ⟨entry, inside, file, rfl⟩ := unpackZipLoop_files loop name member
        exact .inr (List.mem_map_of_mem (List.mem_filter.mpr ⟨inside, by simpa using file⟩))
    · cases passed
  | tarGz =>
    simp only [kind, unpackTarGz] at passed
    split at passed
    · cases passed
    split at passed
    · obtain ⟨_, rfl⟩ : _ ∧ (unpackTarGzLoop u.updateDir o.tarGz.entries disk).2 = files := by
        simpa using passed
      intro name member
      obtain ⟨entry, inside, file, rfl⟩ := unpackTarGzLoop_files name member
      exact .inr (List.mem_map_of_mem (List.mem_filter.mpr ⟨inside, by simpa using file⟩))
    · cases passed
  | raw =>
    simp only [kind] at passed
    split at passed
    · cases passed
    · cases passed
      intro name member
      obtain rfl := List.mem_singleton.mp member
      unfold updateExe
      split
      · exact .inl rfl
      · exact .inl rfl

variable {u o firstRun} {path : Path}

theorem updateExe_plain :
    u.updateExe ≠ "" ∧ u.updateExe ≠ "." ∧ u.updateExe ≠ "/" ∧ u.updateExe ≠ ".." := by
  unfold updateExe
  split
  · decide
  · decide

theorem keeps_download (other : path ≠ u.packagePath) : Keeps path (u.downloadPackageFile o) := by
  intro disk
  unfold downloadPackageFile
  split
  · rfl
  rename_i body _
  have kept : (disk.writeFile u.packagePath body o.saved).1 path = disk path :=
    Disk.writeFile_ne other _ _
  split
  · rename_i attempt
    rwa [attempt] at kept
  · rename_i attempt
    rwa [attempt] at kept

theorem keeps_unpack (entries : ∀ name ∈ u.entryNames o, path ≠ join u.updateDir name)
    (raw : path ≠ u.updateExeName) : Keeps path (u.unpack o) := by
  intro disk
  unfold unpack
  unfold entryNames at entries
  cases kind : format u.packageName with
  | zip =>
    simp only [kind, List.forall_mem_map, List.mem_filter, and_imp] at entries
    simp only [unpackZip]
    split
    · rfl
    · exact unpackZipLoop_ne fun entry inside file => entries entry inside (by simpa using file)
  | tarGz =>
    simp only [kind, List.forall_mem_map, List.mem_filter, and_imp] at entries
    simp only [unpackTarGz]
    split
    · rfl
    · exact unpackTarGzLoop_ne fun entry inside file => entries entry inside (by simpa using file)
  | raw =>
    have kept : (disk.copyFile u.packagePath u.updateExeName o.raw).1 path = disk path :=
      Disk.copyFile_ne raw _
    dsimp only
    split
    · rename_i attempt
      rwa [attempt] at kept
    · rename_i attempt
      rwa [attempt] at kept

theorem keeps_check (other : path ≠ u.updateDir ++ ["AdGuardHome.yaml"]) :
    Keeps path (u.check o) := by
  intro disk
  have kept : (disk.copyFile u.confName (u.updateDir ++ ["AdGuardHome.yaml"]) o.checkCopied).1 path =
      disk path := Disk.copyFile_ne other _
  unfold check
  split
  · rename_i attempt
    rwa [attempt] at kept
  · rename_i attempt
    rwa [attempt] at kept

theorem keeps_backup (conf : firstRun = false → path ≠ u.backupDir ++ ["AdGuardHome.yaml"])
    (other : ∀ name ∈ files, isSkipped name = false → path ≠ join u.backupDir name) :
    Keeps path (u.backup o firstRun files) := by
  refine Step.keeps_andThen ?_ fun _ => Step.keeps_ofResult _ fun _ => copySupportingFiles_ne other
  cases firstRun with
  | true => exact Step.keeps_skip _
  | false => exact Step.keeps_ofResult _ fun disk => Disk.copyFile_ne (conf rfl) _

theorem keeps_checkAndCopy (yaml : firstRun = false → path ≠ u.updateDir ++ ["AdGuardHome.yaml"])
    (conf : firstRun = false → path ≠ u.backupDir ++ ["AdGuardHome.yaml"])
    (supporting : ∀ name ∈ files, isSkipped name = false →
      path ≠ join u.backupDir name ∧ path ≠ join u.workDir name) :
    Keeps path (u.checkAndCopy o firstRun files) := by
  refine Step.keeps_andThen ?_ fun _ => ?_
  · cases firstRun with
    | true => exact Step.keeps_skip _
    | false => exact keeps_check (yaml rfl)
  refine Step.keeps_andThen ?_ fun _ => ?_
  · exact keeps_backup conf fun name member copied => (supporting name member copied).1
  · exact Step.keeps_ofResult _ fun disk =>
      copySupportingFiles_ne fun name member copied => (supporting name member copied).2

theorem Apart.keeps_reach (apart : u.Apart o firstRun) :
    Keeps u.execPath (u.reach o firstRun) := by
  refine Step.keeps_andThen (keeps_download apart.package) fun _ => ?_
  refine Step.keeps_andThen_of
    (fun files => ∀ name ∈ files, isSkipped name = true ∨ name ∈ u.entryNames o)
    (keeps_unpack apart.unpacked apart.update)
    (fun disk after files passed => u.unpack_files o passed) fun files listed => ?_
  refine keeps_checkAndCopy apart.checked apart.conf ?_
  intro name member copied
  rcases listed name member with skipped | entry
  · rw [copied] at skipped
    cases skipped
  · exact apart.supporting name entry copied

theorem updateDir_ne : "agh-update-" ++ u.newVersion ≠ "agh-backup" := by
  intro same
  have fifth := congrArg (fun name => (String.toList name)[4]?) same
  simp [String.toList_append] at fifth

theorem keeps_updateExe :
    Keeps u.updateExeName (u.checkAndCopy o firstRun files) := by
  have yaml : u.updateExe ≠ "AdGuardHome.yaml" := by
    unfold updateExe
    split
    · decide
    · decide
  have long : u.updateExeName.length = u.workDir.length + 2 := by
    simp [updateExeName, updateDir]
  refine keeps_checkAndCopy (fun _ => by simpa [updateExeName] using yaml) ?_ fun name _ _ => ⟨?_, ?_⟩
  · intro _ same
    have dirs := List.append_inj_left' same rfl
    exact updateDir_ne (by simpa [updateDir, backupDir] using dirs)
  · refine ne_join_sub ?_ ?_
    · intro same
      simp [same] at long
    · intro inside
      have names : ["agh-backup"] <+: ["agh-update-" ++ u.newVersion, u.updateExe] := by
        rw [← List.prefix_append_right_inj u.workDir]
        simpa [updateExeName, updateDir] using inside
      exact updateDir_ne (List.cons_prefix_cons.mp names).1.symm
  · intro same
    have short := join_length u.workDir name
    rw [← same] at short
    omega

theorem download_ok (passed : u.downloadPackageFile o disk = (after, .ok ())) :
    after u.packagePath = o.response := by
  unfold downloadPackageFile at passed
  split at passed
  · cases passed
  rename_i body response
  split at passed
  · cases passed
  · rename_i written attempt
    have stored := Disk.writeFile_ok attempt
    obtain ⟨rfl, _⟩ := Prod.mk.inj passed
    rw [stored, response]

/-- A completely extracted package leaves its executable in the update directory. -/
theorem unpack_executable (package : disk u.packagePath = o.response)
    (passed : u.unpack o disk = (after, .ok files)) (executable : u.executable o = some content)
    (extracted : u.Extracted o) : after u.updateExeName = some content := by
  unfold unpack at passed
  unfold Updater.executable at executable
  unfold Extracted at extracted
  cases kind : format u.packageName with
  | zip =>
    simp only [kind] at passed executable
    unfold unpackZip at passed
    split at passed
    · cases passed
    cases loop : (unpackZipLoop u.updateDir o.zip.entries disk).2 with
    | none => simp [loop] at passed
    | some listed =>
      obtain ⟨rfl, _⟩ := Prod.mk.inj passed
      exact (unpackZipLoop_plain updateExe_plain loop).trans (lastFile_some executable _)
  | tarGz =>
    simp only [kind] at passed executable extracted
    unfold unpackTarGz at passed
    split at passed
    · cases passed
    obtain ⟨rfl, _⟩ := Prod.mk.inj passed
    exact (unpackTarGzLoop_plain updateExe_plain extracted).trans (lastFile_some executable _)
  | raw =>
    simp only [kind] at passed executable
    split at passed
    · cases passed
    · rename_i copied attempt
      obtain ⟨data, source, target⟩ := Disk.copyFile_ok attempt
      cases passed
      rw [target, ← source, package, executable]

theorem reach_executable {disk reached : Disk}
    (passed : u.reach o firstRun disk = (reached, .ok ()))
    (executable : u.executable o = some content) (extracted : u.Extracted o) :
    reached u.updateExeName = some content := by
  obtain ⟨downloaded, _, download, passed⟩ := Step.andThen_ok passed
  obtain ⟨unpacked, files, unpack, passed⟩ := Step.andThen_ok passed
  have kept : (u.checkAndCopy o firstRun files unpacked).1 u.updateExeName =
      unpacked u.updateExeName := keeps_updateExe unpacked
  rw [passed] at kept
  refine Eq.trans kept ?_
  exact unpack_executable (download_ok download) unpack executable extracted

variable (u o)

def Installs : Prop :=
  if u.windows then o.copiedUpdate.readable = true ∧ o.copiedUpdate.writing = .written
  else o.renamedUpdate = true

/-- The copy of the new executable breaks off where it is the same as the old one. -/
def LeavesOld (reached : Disk) (old : Option Content) : Prop :=
  u.windows = true ∧ o.copiedUpdate.readable = true ∧
    ∃ left data, o.copiedUpdate.writing = .broken left ∧ reached u.updateExeName = some data ∧
      old = some (data.take left)

/-- What holds if the update gets as far as to replace the executable and moves the current one
away. -/
def Replaceable (firstRun : Bool) (disk : Disk) : Prop :=
  u.prepare o disk = (disk, .ok ()) → ∀ reached, u.reach o firstRun disk = (reached, .ok ()) →
    o.renamedCurrent = true →
      (u.Installs o ∧ (u.executable o).isSome = true ∧ u.Extracted o) ∨
        u.LeavesOld o reached (disk u.execPath)

variable {u o} {before after reached : Disk}

theorem allOrNothing_error {stage : Stage} :
    u.AllOrNothing o before after (.error stage) ↔ after u.execPath = before u.execPath := by
  constructor
  · intro whole
    exact whole.failed (by simp)
  · intro same
    exact ⟨fun _ => same, by simp⟩

theorem allOrNothing_ok :
    u.AllOrNothing o before after (.ok ()) ↔
      (∃ content, u.executable o = some content ∧ after u.execPath = some content) ∧
        u.Extracted o := by
  constructor
  · intro whole
    exact whole.succeeded rfl
  · intro installed
    exact ⟨fun failed => absurd rfl failed, fun _ => installed⟩

theorem updateExeName_ne_backup : u.updateExeName ≠ u.backupExeName := by
  intro same
  have dirs := List.append_inj_left' same rfl
  exact updateDir_ne (by simpa [updateDir, backupDir] using dirs)

/-- The disk once the current executable is moved to the backup. -/
theorem moved (apart : u.Apart o firstRun) (reached : Disk) (old : Content) :
    ((reached.set u.execPath none).set u.backupExeName (some old)) u.execPath = none ∧
      ((reached.set u.execPath none).set u.backupExeName (some old)) u.updateExeName =
        reached u.updateExeName := by
  refine ⟨?_, ?_⟩
  · rw [Disk.set_ne apart.backup, Disk.set_self]
  · rw [Disk.set_ne updateExeName_ne_backup, Disk.set_ne apart.update.symm]

/-- The executable is missing and the second step installs the unpacked one, which an extracted
package leaves. -/
theorem install_ok (unpacked : ∀ content, u.executable o = some content → u.Extracted o →
      reached u.updateExeName = some content) {data : Content}
    (there : reached u.updateExeName = some data) (installed : after u.execPath = some data) :
    u.AllOrNothing o before after (.ok ()) ↔ (u.executable o).isSome = true ∧ u.Extracted o := by
  rw [allOrNothing_ok]
  constructor
  · rintro ⟨⟨content, package, _⟩, extracted⟩
    exact ⟨by simp [package], extracted⟩
  · rintro ⟨package, extracted⟩
    obtain ⟨content, here⟩ := Option.isSome_iff_exists.mp package
    have same := there.symm.trans (unpacked content here extracted)
    exact ⟨⟨content, here, installed.trans same⟩, extracted⟩

/-- An extracted package leaves an executable to install. -/
theorem not_extracted (unpacked : ∀ content, u.executable o = some content → u.Extracted o →
      reached u.updateExeName = some content) (absent : reached u.updateExeName = none) :
    ¬ ((u.executable o).isSome = true ∧ u.Extracted o) := by
  rintro ⟨package, extracted⟩
  obtain ⟨content, here⟩ := Option.isSome_iff_exists.mp package
  rw [unpacked content here extracted] at absent
  cases absent

/-- The second rename. -/
theorem renameUpdate_iff {disk : Disk} (unix : u.windows = false) (gone : disk u.execPath = none)
    (kept : disk u.updateExeName = reached u.updateExeName)
    (unchanged : before u.execPath = some old)
    (unpacked : ∀ content, u.executable o = some content → u.Extracted o →
      reached u.updateExeName = some content) :
    u.AllOrNothing o before
        (Step.ofResult .replacing (·.rename u.updateExeName u.execPath o.renamedUpdate) disk).1
        (Step.ofResult .replacing (·.rename u.updateExeName u.execPath o.renamedUpdate) disk).2 ↔
      u.Installs o ∧ (u.executable o).isSome = true ∧ u.Extracted o := by
  unfold Installs
  simp only [unix, Bool.false_eq_true, ↓reduceIte, Step.ofResult, Disk.rename]
  cases renamed : o.renamedUpdate with
  | false =>
    simp only [Bool.not_false, ↓reduceIte, Except.mapError, allOrNothing_error, gone, unchanged]
    simp
  | true =>
    simp only [Bool.not_true, Bool.false_eq_true, ↓reduceIte, kept, true_and]
    cases there : reached u.updateExeName with
    | none =>
      simp only [Except.mapError, allOrNothing_error, gone, unchanged]
      simpa using not_extracted unpacked there
    | some data => exact install_ok unpacked there (Disk.set_self _ _ _)

/-- The copy of the new executable on Windows. -/
theorem copyUpdate_iff {disk : Disk} (windows : u.windows = true) (gone : disk u.execPath = none)
    (kept : disk u.updateExeName = reached u.updateExeName)
    (unchanged : before u.execPath = some old)
    (unpacked : ∀ content, u.executable o = some content → u.Extracted o →
      reached u.updateExeName = some content) :
    u.AllOrNothing o before
        (Step.ofResult .replacing (·.copyFile u.updateExeName u.execPath o.copiedUpdate) disk).1
        (Step.ofResult .replacing (·.copyFile u.updateExeName u.execPath o.copiedUpdate) disk).2 ↔
      (u.Installs o ∧ (u.executable o).isSome = true ∧ u.Extracted o) ∨
        u.LeavesOld o reached (before u.execPath) := by
  unfold Installs LeavesOld
  simp only [windows, ↓reduceIte, Step.ofResult, Disk.copyFile, true_and]
  cases readable : o.copiedUpdate.readable with
  | false =>
    simp only [Bool.not_false, ↓reduceIte, Except.mapError, allOrNothing_error, gone, unchanged]
    simp
  | true =>
    simp only [Bool.not_true, Bool.false_eq_true, ↓reduceIte, kept, true_and]
    cases there : reached u.updateExeName with
    | none =>
      simp only [Except.mapError, allOrNothing_error, gone, unchanged]
      have missing := not_extracted unpacked there
      simpa using fun _ => not_and.mp missing
    | some data =>
      cases writing : o.copiedUpdate.writing with
      | written =>
        simp only [Disk.writeFile, Except.mapError]
        rw [install_ok unpacked there (Disk.set_self _ _ _)]
        simp
      | notOpened failure =>
        simp only [Disk.writeFile, Except.mapError, allOrNothing_error, gone, unchanged]
        simp
      | broken left =>
        simp only [Disk.writeFile, Except.mapError, allOrNothing_error, Disk.set_self, unchanged]
        constructor
        · intro same
          exact .inr ⟨left, data, rfl, rfl, same.symm⟩
        · rintro (⟨⟨_, impossible⟩, _⟩ | ⟨_, _, same, here, cut⟩)
          cases same
          cases here
          exact cut.symm

/-- Replacing the executable, from the disk that the steps before leave. -/
theorem replaceExecutable_iff (apart : u.Apart o firstRun) (present : reached u.execPath = some old)
    (unchanged : before u.execPath = some old)
    (unpacked : ∀ content, u.executable o = some content → u.Extracted o →
      reached u.updateExeName = some content) :
    u.AllOrNothing o before (u.replaceExecutable o reached).1 (u.replaceExecutable o reached).2 ↔
      (o.renamedCurrent = true →
        (u.Installs o ∧ (u.executable o).isSome = true ∧ u.Extracted o) ∨
          u.LeavesOld o reached (before u.execPath)) := by
  cases renamed : o.renamedCurrent with
  | false =>
    have stopped : u.replaceExecutable o reached = (reached, .error .replacing) := by
      simp [replaceExecutable, Step.andThen, Step.ofResult, Disk.rename, renamed, Except.mapError]
    rw [stopped, allOrNothing_error]
    simp [present, unchanged]
  | true =>
    obtain ⟨gone, kept⟩ := moved apart reached old
    have goes : u.replaceExecutable o reached =
        Step.ofResult .replacing (fun disk =>
          if u.windows then disk.copyFile u.updateExeName u.execPath o.copiedUpdate
          else disk.rename u.updateExeName u.execPath o.renamedUpdate)
          ((reached.set u.execPath none).set u.backupExeName (some old)) := by
      simp [replaceExecutable, Step.andThen, Step.ofResult, Disk.rename, renamed, present,
        Except.mapError]
    rw [goes]
    cases windows : u.windows with
    | false =>
      have installs := renameUpdate_iff windows gone kept unchanged unpacked
      have never : ¬ u.LeavesOld o reached (before u.execPath) := by simp [LeavesOld, windows]
      simpa [never] using installs
    | true =>
      have installs := copyUpdate_iff windows gone kept unchanged unpacked
      simpa using installs

theorem clean_execPath (apart : u.Apart o firstRun) (disk : Disk) :
    u.clean o disk u.execPath = disk u.execPath := by
  unfold clean
  rw [if_neg]
  rw [Bool.and_eq_true]
  rintro ⟨inside, removed⟩
  rw [apart.stays inside] at removed
  cases removed

theorem allOrNothing_clean (apart : u.Apart o firstRun) {result : Except Stage Unit} :
    u.AllOrNothing o before (u.clean o after) result ↔ u.AllOrNothing o before after result := by
  cases result with
  | error stage => rw [allOrNothing_error, allOrNothing_error, clean_execPath apart]
  | ok done => rw [allOrNothing_ok, allOrNothing_ok, clean_execPath apart]

/-- An update leaves the old executable or installs that of the completely extracted package
exactly if the executable is replaced well once it is moved away. -/
theorem update_allOrNothing_iff (apart : u.Apart o firstRun) (disk : Disk) :
    u.AllOrNothing o disk (u.update o firstRun disk).1 (u.update o firstRun disk).2 ↔
      u.Replaceable o firstRun disk := by
  unfold update Step.andThen Replaceable
  cases preparing : u.prepare o disk with
  | mk prepared result =>
    have same : prepared = disk := by
      unfold prepare at preparing
      split at preparing
      · exact (Prod.mk.inj preparing).1.symm
      split at preparing
      · exact (Prod.mk.inj preparing).1.symm
      · exact (Prod.mk.inj preparing).1.symm
    subst same
    cases result with
    | error stage =>
      rw [allOrNothing_error]
      simp
    | ok done =>
      obtain ⟨old, present⟩ : ∃ old, prepared u.execPath = some old := by
        unfold prepare at preparing
        split at preparing
        · cases preparing
        split at preparing
        · cases preparing
        · rename_i there
          rw [← Option.isSome_iff_exists]
          cases here : prepared u.execPath with
          | none => simp [here] at there
          | some old => rfl
      dsimp only
      rw [allOrNothing_clean apart, updatePrepared_eq]
      have kept : (u.reach o firstRun prepared).1 u.execPath = prepared u.execPath :=
        apart.keeps_reach prepared
      unfold Step.andThen
      cases reaching : u.reach o firstRun prepared with
      | mk reached result =>
        rw [reaching] at kept
        cases result with
        | error stage =>
          rw [allOrNothing_error]
          simpa using kept
        | ok done =>
          refine (replaceExecutable_iff apart (kept.trans present) present
            fun content package extracted => reach_executable reaching package extracted).trans ?_
          simp

section Examples

private def linux : Updater where
  workDir := ["opt", "AdGuardHome"]
  newVersion := "v0.108.0"
  packageName := "AdGuardHome_linux_amd64.tar.gz"
  execDir := ["opt", "AdGuardHome"]
  execName := "AdGuardHome"
  confName := ["opt", "AdGuardHome", "AdGuardHome.yaml"]
  windows := false

/-- An update to an archive of one file, in which only the extraction may go wrong. -/
private def extracting (x : Extraction) : Outcomes where
  stat := true
  response := some [7]
  bodyClosed := true
  saved := .written
  zip := ⟨false, [], false⟩
  tarGz := ⟨true, true, [(⟨.regular, "AdGuardHome", [1, 2, 3]⟩, x)], true, true⟩
  raw := ⟨true, .written⟩
  checkCopied := ⟨true, .written⟩
  checkPassed := true
  confCopied := ⟨true, .written⟩
  backedUp := fun _ => ⟨true, .written⟩
  supported := fun _ => ⟨true, .written⟩
  renamedCurrent := true
  renamedUpdate := true
  copiedUpdate := ⟨true, .written⟩
  removed := fun _ => true

private def installed : Disk := fun path =>
  if path = ["opt", "AdGuardHome", "AdGuardHome"] then some [9] else none

theorem update_allOrNothing_linux :
    linux.AllOrNothing (extracting .done) installed
        (linux.update (extracting .done) true installed).1
        (linux.update (extracting .done) true installed).2 ∧
      (linux.update (extracting .done) true installed).1 linux.execPath = some [1, 2, 3] := by
  have archive : format linux.packageName = .tarGz := by decide +kernel
  have extracted : linux.Extracted (extracting .done) := by
    rw [Extracted, archive]
    intro entry member _
    obtain rfl := List.mem_singleton.mp member
    rfl
  have apart : linux.Apart (extracting .done) true :=
    ⟨by decide, by decide +kernel, by decide, nofun, nofun, by decide, by decide +kernel, by decide⟩
  refine ⟨(update_allOrNothing_iff apart installed).mpr ?_, by decide +kernel⟩
  exact fun _ _ _ _ => .inl ⟨rfl, by decide +kernel, extracted⟩

/-- A file of a .tar.gz archive breaks off, and the update installs what there is of it. -/
theorem cut_executable_installed :
    ¬ ∀ (u : Updater) (o : Outcomes) (firstRun : Bool) (disk : Disk),
      u.AllOrNothing o disk (u.update o firstRun disk).1 (u.update o firstRun disk).2 := by
  intro whole
  have update := whole linux (extracting (.cut 1)) true installed
  have cut : (linux.update (extracting (.cut 1)) true installed).1 linux.execPath = some [1] := by
    decide +kernel
  have old : installed linux.execPath = some [9] := by decide
  have wanted : linux.executable (extracting (.cut 1)) = some [1, 2, 3] := by decide +kernel
  have ends : (linux.update (extracting (.cut 1)) true installed).2 = .ok () := by
    by_contra failed
    have same := cut.symm.trans ((update.failed failed).trans old)
    revert same
    decide
  obtain ⟨⟨content, package, there⟩, _⟩ := update.succeeded ends
  have same := wanted.symm.trans (package.trans (there.symm.trans cut))
  revert same
  decide

end Examples

end Updater

end AdGuardHome
