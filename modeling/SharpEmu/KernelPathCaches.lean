import SharpEmu.GuestPaths
import SharpEmu.KernelOpenFlags
import SharpEmu.RememberedLookups

/-!
# The caches of the file exports

A stat of a missing path is remembered under the guest path as it was spelled,
with its separators made uniform; the size that is reported for a path of an asset
stream is remembered under the full host path.  The exports that create, remove,
move or resize files forget some of these.

A file keeps its identity when it is moved, and an open stream stays with it.  A
call comes with what the host refuses.  Making the host root of a mount, as every
export may while it resolves its path, is an operation of its own here.
-/

namespace SharpEmu.KernelPaths

open GuestPaths KernelFiles

/-! ## The files of the host -/

section Files

variable (host : Host)

/-- The full path of a host path, in the letter case of the host's comparisons. -/
def pathKey (path : List Char) : Option (List Char) :=
  if path = [] then none
  else (host.getFullPath path).toOption.map host.fold

def endsInDirectorySeparator (key : List Char) : Bool :=
  key.getLast?.any host.isDirectorySeparator

/-- Where a full path leads. -/
def placeOf (key : List Char) : Place where
  network := host.windows &&
    match key with
    | first :: second :: _ =>
        host.isDirectorySeparator first && host.isDirectorySeparator second
    | _ => false
  components := host.segments key

def getDirectoryName (path : List Char) : Option (List Char) :=
  let root := host.rootLength path
  if path.length ≤ root then none
  else
    some (path.take root ++ ((path.drop root).rdropWhile (!host.isDirectorySeparator ·)).rdropWhile
        host.isDirectorySeparator)

end Files

def isWithin (place top : Place) : Bool :=
  place.network == top.network && top.components.isPrefixOf place.components

def movedFrom (source target place : Place) : Place where
  network := source.network
  components :=
    source.components ++ place.components.drop target.components.length

inductive Entry
  | directory
  | file (id : ℕ)
  deriving DecidableEq

/-- What each place holds, and how long each file is; a new file gets an identity
that no other has. -/
structure FileSystem where
  entries : Place → Option Entry
  sizes : ℕ → ℕ
  nextFile : ℕ
  fresh : ∀ place id, entries place = some (.file id) → id < nextFile

namespace FileSystem

variable (files : FileSystem)

def isDirectory (place : Place) : Bool :=
  files.entries place = some .directory

def hasParent (place : Place) : Bool :=
  files.isDirectory { place with components := place.components.dropLast }

def sizeAt (place : Place) : Option ℕ :=
  (files.entries place).map fun
    | .directory => 65536
    | .file id => files.sizes id

/-- A file is in the way of a directory. -/
def isBlocked (top : Place) : Bool :=
  top.components.inits.any fun front =>
    match files.entries { top with components := front } with
    | some (.file _) => true
    | _ => false

def makeDirectories (top : Place) : FileSystem where
  entries place :=
    if isWithin top place ∧ files.entries place = none then some .directory
    else files.entries place
  sizes := files.sizes
  nextFile := files.nextFile
  fresh := by
    intro place id holds
    split at holds
    · cases holds
    · exact files.fresh place id holds

def createDirectory (top : Place) : Option FileSystem :=
  if files.isBlocked top then none else some (files.makeDirectories top)

def makeFile (place : Place) : FileSystem where
  entries := Function.update files.entries place (some (.file files.nextFile))
  sizes := Function.update files.sizes files.nextFile 0
  nextFile := files.nextFile + 1
  fresh := by
    intro other id holds
    by_cases same : other = place
    · subst same
      rw [Function.update_self] at holds
      cases holds
      omega
    · rw [Function.update_of_ne same] at holds
      have earlier := files.fresh other id holds
      omega

def resize (id size : ℕ) : FileSystem :=
  { files with sizes := Function.update files.sizes id size }

def remove (place : Place) : FileSystem where
  entries := Function.update files.entries place none
  sizes := files.sizes
  nextFile := files.nextFile
  fresh := by
    intro other id holds
    by_cases same : other = place
    · subst same
      rw [Function.update_self] at holds
      cases holds
    · rw [Function.update_of_ne same] at holds
      exact files.fresh other id holds

def move (source target : Place) : FileSystem where
  entries place :=
    if isWithin place target then
      files.entries (movedFrom source target place)
    else if isWithin place source then none
    else files.entries place
  sizes := files.sizes
  nextFile := files.nextFile
  fresh := by
    intro place id holds
    split at holds
    · exact files.fresh _ id holds
    · split at holds
      · cases holds
      · exact files.fresh place id holds

end FileSystem

/-! ## Guest paths -/

structure PathMapping where
  host : Host
  roots : BuiltInRoots
  mounts : List RegisteredMount
  writableApp0 : Bool

section Paths

variable (mapping : PathMapping)

def isUnder (host : Host) (mountPoint guestPath : List Char) : Bool :=
  host.equalsIgnoreCase guestPath mountPoint ||
    host.startsWithIgnoreCase guestPath (mountPoint ++ ['/'])

def isReadOnlyGuestStatPath (host : Host) (normalizedGuestPath : List Char) :
    Bool :=
  ["/app0".toList, "/hostapp".toList, "/devlog/app".toList, "/temp0".toList,
    "/download0".toList].any (isUnder host · normalizedGuestPath)

def getNegativeStatCacheKey (host : Host) (guestPath : List Char) : Option (List Char) :=
  (normalizeGuestStatCachePath guestPath).filter (isReadOnlyGuestStatPath host)

def PathMapping.statCacheKey (guestPath : List Char) : Option (List Char) :=
  (getNegativeStatCacheKey mapping.host guestPath).map mapping.host.fold

/-- The loop over a normalized path and what lies above it; `count` bounds it. -/
def pathAndAncestors : ℕ → List Char → List (List Char)
  | 0, current => [current]
  | count + 1, current =>
      let above := (current.rdropWhile (· ≠ '/')).dropLast
      if above = [] then [current] else current :: pathAndAncestors count above

def PathMapping.invalidatedKeys (guestPath : List Char) : List (List Char) :=
  match normalizeGuestStatCachePath guestPath with
  | none => []
  | some normalized =>
      (pathAndAncestors normalized.length normalized ++ [['/']]).map mapping.host.fold

def PathMapping.isReadOnlyGuestMutationPath (guestPath : List Char) : Bool :=
  !mapping.writableApp0 && (normalizeGuestStatCachePath guestPath).any
      (isUnder mapping.host "/app0".toList)

def PathMapping.hostPath (guestPath : List Char) : Option (List Char) :=
  (resolveGuestPath mapping.host mapping.roots mapping.mounts guestPath).toOption

def PathMapping.key (guestPath : List Char) : Option (List Char) :=
  (mapping.hostPath guestPath).bind (pathKey mapping.host)

def PathMapping.place (guestPath : List Char) : Option Place :=
  (mapping.key guestPath).map (placeOf mapping.host)

def PathMapping.parentPlace (guestPath : List Char) : Option Place :=
  ((mapping.hostPath guestPath).bind fun path =>
    (getDirectoryName mapping.host path).bind (pathKey mapping.host)).map (placeOf mapping.host)

/-- The directory that is made for a file before it is opened. -/
def PathMapping.parentToCreate (guestPath : List Char) (flags : UInt32) :
    Option Place :=
  if hasFlag flags oCreat || mapping.host.startsWithIgnoreCase guestPath "/devlog/app/".toList ||
      mapping.host.startsWithIgnoreCase guestPath "devlog/app/".toList then
    mapping.parentPlace guestPath
  else none

def namesMount (host : Host) (name guestPath : List Char) : Bool :=
  isUnder host ('/' :: name) guestPath || isUnder host name guestPath

end Paths

section Presence

variable (mapping : PathMapping) (files : FileSystem)

def fileExists (key : List Char) : Bool :=
  !endsInDirectorySeparator mapping.host key &&
    match files.entries (placeOf mapping.host key) with
    | some (.file _) => true
    | _ => false

def directoryExists (key : List Char) : Bool :=
  files.isDirectory (placeOf mapping.host key)

def isPresent (guestPath : List Char) : Bool :=
  (mapping.key guestPath).any fun key =>
    fileExists mapping files key || directoryExists mapping files key

end Presence

/-! ## The exports -/

inductive Result
  | ok
  | notFound
  | invalidArgument
  | permissionDenied
  | alreadyExists
  | busy
  | threw
  deriving DecidableEq

structure OpenFile where
  file : ℕ
  access : FileAccess

structure State where
  files : FileSystem
  negativeStatCache : Finset (List Char)
  aprFileSizeCache : List Char → Option ℕ
  openFiles : ℤ → Option OpenFile
  nextFileDescriptor : ℤ
  cachedDownload0Root : Bool

section Host

variable (mapping : PathMapping)

def newFileStream (files : FileSystem) (key : List Char) (mode : FileMode)
    (access : FileAccess) (refusal : Option HostException) :
    Except HostException (ℕ × FileSystem) :=
  let place := placeOf mapping.host key
  if (mode = .create ∨ mode = .truncate) ∧ access = .read then .error .argument
  else
    match refusal with
    | some exception => .error exception
    | none =>
        if endsInDirectorySeparator mapping.host key then .error .io
        else
          match files.entries place with
          | some .directory => .error .unauthorizedAccess
          | some (.file id) =>
              if mode = .create ∨ mode = .truncate then
                .ok (id, files.resize id 0)
              else .ok (id, files)
          | none =>
              if mode = .openExisting ∨ mode = .truncate ∨
                  files.hasParent place = false then .error .io
              else .ok (files.nextFile, files.makeFile place)

/-- The host moves a directory only where nothing is, and a file not onto a
directory; a path may be moved to itself. -/
def canMove (files : FileSystem) (fromKey toKey : List Char) : Bool :=
  let source := placeOf mapping.host fromKey
  let target := placeOf mapping.host toKey
  decide (source = target) ||
    if files.isDirectory source then
      files.entries target = none && !isWithin target source
    else
      !files.isDirectory target && !endsInDirectorySeparator mapping.host toKey

end Host

namespace State

variable (mapping : PathMapping) (state : State)

def removeNegativeStatCache (cacheKey : List Char) : State :=
  { state with negativeStatCache := state.negativeStatCache.erase cacheKey }

def addNegativeStatCacheForGuestPath (guestPath : List Char) : State :=
  match mapping.statCacheKey guestPath with
  | none => state
  | some cacheKey =>
      { state with
        negativeStatCache := insert cacheKey state.negativeStatCache }

def invalidateNegativeStatCacheForPathAndAncestors (guestPath : List Char) :
    State :=
  { state with
    negativeStatCache :=
      state.negativeStatCache \ (mapping.invalidatedKeys guestPath).toFinset }

def invalidateAprFileSizeCache (key : List Char) : State :=
  { state with
    aprFileSizeCache := Function.update state.aprFileSizeCache key none }

def makeRoot (root : List Char) : Option State :=
  (pathKey mapping.host root).bind fun key =>
    (state.files.createDirectory (placeOf mapping.host key)).map fun files =>
      { state with files := files }

def rootToMake (guestPath : List Char) : Option (List Char) :=
  match tryResolveRegisteredGuestMount mapping.host mapping.mounts guestPath with
  | .ok none =>
      if namesMount mapping.host "devlog/app".toList guestPath then
        some mapping.roots.devlogApp
      else if namesMount mapping.host "download0".toList guestPath then
        if state.cachedDownload0Root then none else some mapping.roots.download0
      else if namesMount mapping.host "hostapp".toList guestPath then
        some mapping.roots.hostapp
      else none
  | _ => none

def resolveGuestPath (guestPath : List Char) : State :=
  match (state.rootToMake mapping guestPath).bind (state.makeRoot mapping) with
  | none => state
  | some made =>
      { made with
        cachedDownload0Root := made.cachedDownload0Root ||
          namesMount mapping.host "download0".toList guestPath }

/-- `filled`: the attributes are read and written to the caller's buffer. -/
def kernelStat (guestPath : List Char) (filled : Bool) : Result × State :=
  if mapping.hostPath guestPath = none then (.threw, state)
  else if (mapping.statCacheKey guestPath).any
      (decide <| · ∈ state.negativeStatCache) then (.notFound, state)
  else if isPresent mapping state.files guestPath && filled then
    (.ok, ((mapping.statCacheKey guestPath).map state.removeNegativeStatCache).getD state)
  else (.notFound, state.addNegativeStatCacheForGuestPath mapping guestPath)

def tryGetAprFileSize (guestPath : List Char) : Option ℕ × State :=
  match mapping.key guestPath with
  | none => (none, state)
  | some key =>
      match state.aprFileSizeCache key,
          state.files.sizeAt (placeOf mapping.host key) with
      | some size, _ => (some size, state)
      | none, none => (none, state)
      | none, some size =>
          (some size,
            { state with
              aprFileSizeCache :=
                Function.update state.aprFileSizeCache key (some size) })

def ensureOpenParentDirectoryExists (guestPath : List Char) (flags : UInt32) :
    Option FileSystem :=
  match mapping.parentToCreate guestPath flags with
  | none => some state.files
  | some parent => state.files.createDirectory parent

/-- A new descriptor: the counter is incremented and cast to 32 bits. -/
def addOpenFile (file : OpenFile) : State :=
  { state with
    openFiles :=
      Function.update state.openFiles (Int.bmod (state.nextFileDescriptor + 1) (2 ^ 32)) (some file)
    nextFileDescriptor := state.nextFileDescriptor + 1 }

def openFileAt (guestPath key : List Char) (flags : UInt32)
    (refusal : Option HostException) : Result × State :=
  let access := resolveOpenAccess flags
  match state.ensureOpenParentDirectoryExists mapping guestPath flags with
  | none => (.notFound, state)
  | some made =>
      match newFileStream mapping made key (resolveOpenMode flags access) access
          refusal with
      | .error .io => (.notFound, { state with files := made })
      | .error .unauthorizedAccess =>
          (.invalidArgument, { state with files := made })
      | .error .argument => (.threw, { state with files := made })
      | .ok (file, files) =>
          let opened := { state with files := files }.addOpenFile ⟨file, access⟩
          (.ok,
            if isMutatingOpen flags then
              (opened.invalidateNegativeStatCacheForPathAndAncestors mapping
                guestPath).invalidateAprFileSizeCache key
            else opened)

def kernelOpenUnderscore (guestPath : List Char) (flags : UInt32)
    (shouldSkipGuestMovie : Bool) (refusal : Option HostException) :
    Result × State :=
  match mapping.hostPath guestPath, mapping.key guestPath with
  | none, _ => (.threw, state)
  | some _, none =>
      if hasFlag flags oDirectory then (.notFound, state) else (.threw, state)
  | some _, some key =>
      if shouldSkipGuestMovie then (.notFound, state)
      else if isMutatingOpen flags && mapping.isReadOnlyGuestMutationPath guestPath then
        (.permissionDenied, state)
      else if hasFlag flags oDirectory || directoryExists mapping state.files key then
        if directoryExists mapping state.files key = false then
          (.notFound, state)
        else if resolveOpenAccess flags ≠ .read ∨ hasFlag flags (oCreat ||| oTrunc ||| oAppend) then
          (.invalidArgument, state)
        else
          (.ok, { state with nextFileDescriptor := state.nextFileDescriptor + 1 })
      else state.openFileAt mapping guestPath key flags refusal

def kernelWriteUnderscore (fd : ℤ) (position count : ℕ) : Result × State :=
  if fd = 1 ∨ fd = 2 then (.ok, state)
  else
    match state.openFiles fd with
    | none => (.notFound, state)
    | some stream =>
        if stream.access.canWrite = false then (.threw, state)
        else if count = 0 then (.ok, state)
        else
          (.ok,
            { state with
              files := state.files.resize stream.file
                (max (state.files.sizes stream.file) (position + count)) })

def kernelFtruncateCore (fd length : ℤ) (refused : Bool) : Result × State :=
  if length < 0 then (.invalidArgument, state)
  else
    match state.openFiles fd with
    | none => (.notFound, state)
    | some stream =>
        if stream.access.canWrite = false then (.threw, state)
        else if refused then (.invalidArgument, state)
        else
          (.ok,
            { state with
              files := state.files.resize stream.file length.toNat })

def kernelTruncateCore (guestPath : List Char) (length : ℤ)
    (refusal : Option HostException) : Result × State :=
  if length < 0 then (.invalidArgument, state)
  else if mapping.isReadOnlyGuestMutationPath guestPath then
    (.permissionDenied, state)
  else
    match mapping.key guestPath with
    | none => (.threw, state)
    | some key =>
        match refusal with
        | some .io => (.invalidArgument, state)
        | some .unauthorizedAccess => (.threw, state)
        | some .argument => (.threw, state)
        | none =>
            if endsInDirectorySeparator mapping.host key then
              (.invalidArgument, state)
            else
              match state.files.entries (placeOf mapping.host key) with
              | some .directory => (.threw, state)
              | some (.file id) =>
                  (.ok, { state with files := state.files.resize id length.toNat })
              | none =>
                  if state.files.hasParent (placeOf mapping.host key) then
                    (.notFound, state)
                  else (.invalidArgument, state)

def kernelMkdir (guestPath : List Char) (refusal : Option HostException) : Result × State :=
  match mapping.hostPath guestPath with
  | none => (.threw, state)
  | some _ =>
      if mapping.isReadOnlyGuestMutationPath guestPath then
        (.permissionDenied, state)
      else if isPresent mapping state.files guestPath then
        (.alreadyExists, state)
      else if (mapping.parentPlace guestPath).any state.files.isDirectory = false
      then (.notFound, state)
      else
        match refusal, (mapping.place guestPath).bind
            state.files.createDirectory with
        | some .unauthorizedAccess, _ => (.permissionDenied, state)
        | some .io, _ => (.invalidArgument, state)
        | some .argument, _ => (.threw, state)
        | none, none => (.invalidArgument, state)
        | none, some files =>
            (.ok, { state with
              files := files
              }.invalidateNegativeStatCacheForPathAndAncestors mapping guestPath)

def kernelRmdir (guestPath : List Char) (refusal : Option HostException) : Result × State :=
  match mapping.hostPath guestPath with
  | none => (.threw, state)
  | some _ =>
      if mapping.isReadOnlyGuestMutationPath guestPath then
        (.permissionDenied, state)
      else
        match (mapping.key guestPath).filter
            (directoryExists mapping state.files), refusal with
        | none, _ =>
            (.notFound, state.addNegativeStatCacheForGuestPath mapping guestPath)
        | some _, some .unauthorizedAccess => (.permissionDenied, state)
        | some _, some .io => (.busy, state)
        | some _, some .argument => (.threw, state)
        | some key, none =>
            let removed := { state with
              files := state.files.remove (placeOf mapping.host key) }
            (.ok, (removed.invalidateNegativeStatCacheForPathAndAncestors mapping
              guestPath).addNegativeStatCacheForGuestPath mapping guestPath)

def kernelUnlink (guestPath : List Char) (refusal : Option HostException) : Result × State :=
  match mapping.hostPath guestPath with
  | none => (.threw, state)
  | some _ =>
      if mapping.isReadOnlyGuestMutationPath guestPath then
        (.permissionDenied, state)
      else if (mapping.key guestPath).any (directoryExists mapping state.files)
      then (.permissionDenied, state)
      else
        match (mapping.key guestPath).filter
            (fileExists mapping state.files), refusal with
        | none, _ =>
            (.notFound, state.addNegativeStatCacheForGuestPath mapping guestPath)
        | some _, some .unauthorizedAccess => (.permissionDenied, state)
        | some _, some .io => (.busy, state)
        | some _, some .argument => (.threw, state)
        | some key, none =>
            let removed := { state with
              files := state.files.remove (placeOf mapping.host key) }
            (.ok, ((removed.invalidateNegativeStatCacheForPathAndAncestors mapping
                guestPath).invalidateAprFileSizeCache
                  key).addNegativeStatCacheForGuestPath mapping guestPath)

def kernelRenameCore (fromGuest toGuest : List Char)
    (refusal : Option HostException) : Result × State :=
  if mapping.isReadOnlyGuestMutationPath fromGuest ||
      mapping.isReadOnlyGuestMutationPath toGuest then
    (.permissionDenied, state)
  else
    match mapping.key fromGuest, mapping.key toGuest with
    | some fromKey, some toKey =>
        if !(fileExists mapping state.files fromKey ||
            directoryExists mapping state.files fromKey) then (.notFound, state)
        else
          match refusal with
          | some .io => (.invalidArgument, state)
          | some .unauthorizedAccess => (.threw, state)
          | some .argument => (.threw, state)
          | none =>
              if state.files.hasParent (placeOf mapping.host toKey) = false then
                (.notFound, state)
              else if canMove mapping state.files fromKey toKey = false then
                (.invalidArgument, state)
              else
                let moved := { state with
                  files := state.files.move (placeOf mapping.host fromKey)
                    (placeOf mapping.host toKey) }
                (.ok, (((moved.invalidateNegativeStatCacheForPathAndAncestors mapping
                    toGuest).addNegativeStatCacheForGuestPath mapping
                      fromGuest).invalidateAprFileSizeCache
                        fromKey).invalidateAprFileSizeCache toKey)
    | _, _ => (.threw, state)

end State

/-! ## Runs -/

inductive Operation
  | resolve (guestPath : List Char)
  | stat (guestPath : List Char) (filled : Bool)
  | aprResolve (guestPath : List Char)
  | openUnderscore (guestPath : List Char) (flags : UInt32)
      (shouldSkipGuestMovie : Bool) (refusal : Option HostException)
  | write (fd : ℤ) (position count : ℕ)
  | ftruncate (fd length : ℤ) (refused : Bool)
  | truncate (guestPath : List Char) (length : ℤ)
      (refusal : Option HostException)
  | mkdir (guestPath : List Char) (refusal : Option HostException)
  | rmdir (guestPath : List Char) (refusal : Option HostException)
  | unlink (guestPath : List Char) (refusal : Option HostException)
  | rename (fromGuest toGuest : List Char) (refusal : Option HostException)

def State.after (mapping : PathMapping) (state : State) : Operation → State
  | .resolve guestPath => state.resolveGuestPath mapping guestPath
  | .stat guestPath filled => (state.kernelStat mapping guestPath filled).2
  | .aprResolve guestPath => (state.tryGetAprFileSize mapping guestPath).2
  | .openUnderscore guestPath flags shouldSkipGuestMovie refusal =>
      (state.kernelOpenUnderscore mapping guestPath flags shouldSkipGuestMovie refusal).2
  | .write fd position count => (state.kernelWriteUnderscore fd position count).2
  | .ftruncate fd length refused =>
      (state.kernelFtruncateCore fd length refused).2
  | .truncate guestPath length refusal =>
      (state.kernelTruncateCore mapping guestPath length refusal).2
  | .mkdir guestPath refusal => (state.kernelMkdir mapping guestPath refusal).2
  | .rmdir guestPath refusal => (state.kernelRmdir mapping guestPath refusal).2
  | .unlink guestPath refusal => (state.kernelUnlink mapping guestPath refusal).2
  | .rename fromGuest toGuest refusal =>
      (state.kernelRenameCore mapping fromGuest toGuest refusal).2

def State.HostAllows (mapping : PathMapping) (state : State) : Operation → Prop
  | .rmdir guestPath none =>
      ∀ top, mapping.place guestPath = some top → ∀ place, isWithin place top → place ≠ top →
          state.files.entries place = none
  | _ => True

def Step (mapping : PathMapping) (before : State) (operation : Operation) (after : State) : Prop :=
  before.HostAllows mapping operation ∧ after = before.after mapping operation

/-- The exports start with empty caches and no open file. -/
def IsStart (state : State) : Prop :=
  state.negativeStatCache = ∅ ∧ state.aprFileSizeCache = (fun _ => none) ∧
    state.openFiles = (fun _ => none) ∧ state.nextFileDescriptor = 2 ∧
    state.cachedDownload0Root = false

end SharpEmu.KernelPaths
