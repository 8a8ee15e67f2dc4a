import Mathlib.Data.Option.Basic

/-! Package `updater`: the self-update, in which every file, archive and command step may end
well or not. -/
namespace AdGuardHome

namespace Updater

universe v w

abbrev Content := List (BitVec 8)

abbrev Path := List String

abbrev Disk := Path → Option Content

/-- `filepath.Join` of a clean directory and what `filepath.Base` returns. -/
def join (dir : Path) (name : String) : Path :=
  if name = "." ∨ name = "/" then dir
  else if name = ".." then dir.dropLast
  else dir ++ [name]

inductive Failure where
  | notExist
  | other
deriving DecidableEq

/-- How writing a file ends. After an error it has the first bytes, or what it had before if it
could not be opened. -/
inductive Writing where
  | written
  | notOpened (failure : Failure)
  | broken (left : Nat)
deriving DecidableEq

/-- How copying a file ends: whether the source can be read if it exists, and the rest. -/
structure Copying where
  readable : Bool
  writing : Writing
deriving DecidableEq

namespace Disk

def set (disk : Disk) (path : Path) (file : Option Content) : Disk :=
  Function.update disk path file

/-- `os.WriteFile`. -/
def writeFile (disk : Disk) (path : Path) (data : Content) : Writing → Disk × Except Failure Unit
  | .written => (disk.set path (some data), .ok ())
  | .notOpened failure => (disk, .error failure)
  | .broken left => (disk.set path (some (data.take left)), .error .other)

/-- `copyFile`. -/
def copyFile (disk : Disk) (src dst : Path) (copying : Copying) : Disk × Except Failure Unit :=
  if !copying.readable then (disk, .error .other)
  else match disk src with
    | none => (disk, .error .notExist)
    | some data => disk.writeFile dst data copying.writing

/-- `os.Rename` of a file. -/
def rename (disk : Disk) (src dst : Path) (renamed : Bool) : Disk × Except Failure Unit :=
  if !renamed then (disk, .error .other)
  else match disk src with
    | none => (disk, .error .notExist)
    | some data => ((disk.set src none).set dst (some data), .ok ())

end Disk

inductive Kind where
  | dir
  | regular
  | other
deriving DecidableEq

structure Entry where
  kind : Kind
  name : String
  content : Content
deriving DecidableEq

/-- How the extraction of an entry ends. A file that is cut or not closed has the first bytes;
a directory that exists is as good as a new one. -/
inductive Extraction where
  | done
  | notOpened
  | cut (left : Nat)
  | notClosed (left : Nat)
deriving DecidableEq

structure ZipExtraction where
  opened : Bool
  extraction : Extraction
  closed : Bool
deriving DecidableEq

structure Unpacked where
  disk : Disk
  name : String
  failed : Bool

/-- The extraction of an entry that is a directory, a file or neither. -/
def unpackEntry (disk : Disk) (outDir : Path) (isDir isFile : Bool) (e : Entry) (x : Extraction) :
    Unpacked :=
  let written := fun data => disk.set (join outDir e.name) (some data)
  if e.name = "" then ⟨disk, "", false⟩
  else if isDir then
    if e.name = "AdGuardHome" then ⟨disk, "", false⟩ else ⟨disk, "", x ≠ .done⟩
  else if !isFile then ⟨disk, "", false⟩
  else match x with
    | .done => ⟨written e.content, e.name, false⟩
    | .notOpened => ⟨disk, "", true⟩
    | .cut left => ⟨written (e.content.take left), "", true⟩
    | .notClosed left => ⟨written (e.content.take left), e.name, true⟩

/-- `Updater.unpackTarGzFile`: only regular files are extracted. -/
def unpackTarGzFile (disk : Disk) (outDir : Path) (e : Entry) (x : Extraction) : Unpacked :=
  unpackEntry disk outDir (e.kind == .dir) (e.kind == .regular) e x

/-- `Updater.unpackZipFile`: all that is no directory is extracted. -/
def unpackZipFile (disk : Disk) (outDir : Path) (e : Entry) (x : ZipExtraction) : Unpacked :=
  if !x.opened then ⟨disk, "", true⟩
  else
    let unpacked := unpackEntry disk outDir (e.kind == .dir) true e x.extraction
    { unpacked with failed := unpacked.failed || !x.closed }

def listName (name : String) (files : List String) : List String :=
  if name ≠ "" then name :: files else files

/-- The loop of `Updater.unpackTarGz`. The next header overwrites the error of an entry. -/
def unpackTarGzLoop (outDir : Path) : List (Entry × Extraction) → Disk → Disk × List String
  | [], disk => (disk, [])
  | (e, x) :: rest, disk =>
    let unpacked := unpackTarGzFile disk outDir e x
    let (disk, files) := unpackTarGzLoop outDir rest unpacked.disk
    (disk, listName unpacked.name files)

/-- The loop of `Updater.unpackZip`, which ends with the first error. -/
def unpackZipLoop (outDir : Path) :
    List (Entry × ZipExtraction) → Disk → Disk × Option (List String)
  | [], disk => (disk, some [])
  | (e, x) :: rest, disk =>
    let unpacked := unpackZipFile disk outDir e x
    if unpacked.failed then (unpacked.disk, none)
    else
      let (disk, files) := unpackZipLoop outDir rest unpacked.disk
      (disk, files.map (listName unpacked.name))

/-- What the readers of a .tar.gz archive come to: the entries up to the end, or up to an error. -/
structure TarGzReading where
  opened : Bool
  unzipped : Bool
  entries : List (Entry × Extraction)
  ends : Bool
  closed : Bool

structure ZipReading where
  opened : Bool
  entries : List (Entry × ZipExtraction)
  closed : Bool

/-- `Updater.unpackTarGz`. -/
def unpackTarGz (disk : Disk) (outDir : Path) (reading : TarGzReading) :
    Disk × Option (List String) :=
  if !reading.opened || !reading.unzipped then (disk, none)
  else
    let (disk, files) := unpackTarGzLoop outDir reading.entries disk
    (disk, if reading.ends && reading.closed then some files else none)

/-- `Updater.unpackZip`. -/
def unpackZip (disk : Disk) (outDir : Path) (reading : ZipReading) : Disk × Option (List String) :=
  if !reading.opened then (disk, none)
  else
    let (disk, files) := unpackZipLoop outDir reading.entries disk
    (disk, if reading.closed then files else none)

/-- The names that `Updater.copySupportingFiles` skips. -/
def isSkipped (name : String) : Bool :=
  name == "AdGuardHome" || name == "AdGuardHome.exe" || name == "AdGuardHome.yaml"

/-- `Updater.copySupportingFiles`, with how each of the copies ends. A file that does not exist
is passed over. -/
def copySupportingFiles (srcdir dstdir : Path) :
    List String → (Nat → Copying) → Disk → Disk × Except Failure Unit
  | [], _, disk => (disk, .ok ())
  | name :: rest, copying, disk =>
    let later := fun i => copying (i + 1)
    if isSkipped name then copySupportingFiles srcdir dstdir rest later disk
    else match disk.copyFile (join srcdir name) (join dstdir name) (copying 0) with
      | (disk, .error .other) => (disk, .error .other)
      | (disk, _) => copySupportingFiles srcdir dstdir rest later disk

end Updater

/-- `Updater`, with the name that the URL of the package ends with and the path of the executable
in two parts. -/
structure Updater where
  workDir : Updater.Path
  newVersion : String
  packageName : String
  execDir : Updater.Path
  execName : String
  confName : Updater.Path
  windows : Bool

namespace Updater

structure Outcomes where
  stat : Bool
  response : Option Content
  bodyClosed : Bool
  saved : Writing
  zip : ZipReading
  tarGz : TarGzReading
  raw : Copying
  checkCopied : Copying
  checkPassed : Bool
  confCopied : Copying
  backedUp : Nat → Copying
  supported : Nat → Copying
  renamedCurrent : Bool
  renamedUpdate : Bool
  copiedUpdate : Copying
  removed : Path → Bool

/-- The step that the error of an update names. -/
inductive Stage where
  | preparing
  | downloadingPackageFile
  | unpacking
  | checkingConfig
  | makingBackup
  | replacing
deriving DecidableEq

def Step (α : Type v) := Disk → Disk × Except Stage α

def Step.andThen {α : Type v} {β : Type w} (first : Step α) (second : α → Step β) : Step β :=
  fun disk =>
    match first disk with
    | (disk, .error stage) => (disk, .error stage)
    | (disk, .ok value) => second value disk

def Step.ofResult (stage : Stage) (operation : Disk → Disk × Except Failure Unit) : Step Unit :=
  fun disk => ((operation disk).1, (operation disk).2.mapError fun _ => stage)

/-- The kinds of packages, told apart by the name. -/
inductive Format where
  | zip
  | tarGz
  | raw
deriving DecidableEq

def format (packageName : String) : Format :=
  if packageName.endsWith ".zip" then .zip
  else if packageName.endsWith ".tar.gz" then .tarGz
  else .raw

variable (u : Updater) (o : Outcomes)

def execPath : Path := u.execDir ++ [u.execName]

def updateDir : Path := u.workDir ++ ["agh-update-" ++ u.newVersion]

def backupDir : Path := u.workDir ++ ["agh-backup"]

def updateExe : String := if u.windows then "AdGuardHome.exe" else "AdGuardHome"

def updateExeName : Path := u.updateDir ++ [u.updateExe]

def backupExeName : Path := u.backupDir ++ [u.execName]

def packagePath : Path := join u.updateDir u.packageName

/-- `Updater.prepare`. -/
def prepare : Step Unit := fun disk =>
  if u.packageName = "" then (disk, .error .preparing)
  else if (disk u.execPath).isNone || !o.stat then (disk, .error .preparing)
  else (disk, .ok ())

/-- `Updater.downloadPackageFile`. -/
def downloadPackageFile : Step Unit := fun disk =>
  match o.response with
  | none => (disk, .error .downloadingPackageFile)
  | some body =>
    match disk.writeFile u.packagePath body o.saved with
    | (disk, .error _) => (disk, .error .downloadingPackageFile)
    | (disk, .ok ()) => (disk, if o.bodyClosed then .ok () else .error .downloadingPackageFile)

/-- `Updater.unpack`: the names of the unpacked files. -/
def unpack : Step (List String) := fun disk =>
  match format u.packageName with
  | .zip =>
    let (disk, files) := unpackZip disk u.updateDir o.zip
    (disk, files.elim (.error .unpacking) .ok)
  | .tarGz =>
    let (disk, files) := unpackTarGz disk u.updateDir o.tarGz
    (disk, files.elim (.error .unpacking) .ok)
  | .raw =>
    match disk.copyFile u.packagePath u.updateExeName o.raw with
    | (disk, .error _) => (disk, .error .unpacking)
    | (disk, .ok ()) => (disk, .ok [u.updateExe])

/-- `Updater.check`. The unpacked executable must be there to check the configuration. -/
def check : Step Unit := fun disk =>
  match disk.copyFile u.confName (u.updateDir ++ ["AdGuardHome.yaml"]) o.checkCopied with
  | (disk, .error _) => (disk, .error .checkingConfig)
  | (disk, .ok ()) =>
    (disk, if o.checkPassed && (disk u.updateExeName).isSome then .ok () else .error .checkingConfig)

/-- `Updater.backup`. -/
def backup (firstRun : Bool) (files : List String) : Step Unit :=
  Step.andThen
    (if firstRun then fun disk => (disk, .ok ())
    else .ofResult .makingBackup fun disk =>
      disk.copyFile u.confName (u.backupDir ++ ["AdGuardHome.yaml"]) o.confCopied)
    fun _ => .ofResult .makingBackup (copySupportingFiles u.workDir u.backupDir files o.backedUp)

/-- The part of `Updater.replace` that replaces the executable. -/
def replaceExecutable : Step Unit :=
  Step.andThen
    (.ofResult .replacing fun disk => disk.rename u.execPath u.backupExeName o.renamedCurrent)
    fun _ => .ofResult .replacing fun disk =>
      if u.windows then disk.copyFile u.updateExeName u.execPath o.copiedUpdate
      else disk.rename u.updateExeName u.execPath o.renamedUpdate

/-- `Updater.replace`. -/
def replace (files : List String) : Step Unit :=
  Step.andThen
    (.ofResult .replacing (copySupportingFiles u.updateDir u.workDir files o.supported))
    fun _ => u.replaceExecutable o

/-- `Updater.clean`. -/
def clean (disk : Disk) : Disk := fun path =>
  if u.updateDir.isPrefixOf path && o.removed path then none else disk path

/-- `Updater.Update` behind the deferred `clean`. -/
def updatePrepared (firstRun : Bool) : Step Unit :=
  (u.downloadPackageFile o).andThen fun _ => (u.unpack o).andThen fun files =>
    Step.andThen (if firstRun then fun disk => (disk, .ok ()) else u.check o) fun _ =>
      (u.backup o firstRun files).andThen fun _ => u.replace o files

/-- `Updater.Update`. -/
def update (firstRun : Bool) : Step Unit :=
  (u.prepare o).andThen fun _ disk =>
    let (disk, result) := u.updatePrepared o firstRun disk
    (u.clean o disk, result)

end Updater

end AdGuardHome
