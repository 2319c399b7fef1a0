import SharpEmu.PathSegments
import Mathlib.Data.List.DropRight

/-!
# Guest paths

`ResolveGuestPath` turns a guest path into a host path.  Registered mounts come
first; the built-in prefixes follow in the order of the source, and a path that
none of them takes is handed on unchanged.  The part behind a prefix is
normalized so that it cannot climb above the mount, and is then combined with
the host root by the rules of the host platform.
-/

namespace SharpEmu
namespace GuestPaths

open PathSegments

/-! ## Host paths -/

def isValidDriveChar (letter : Char) : Bool :=
  letter.isAlpha

/-- The host platform: whether it is Windows, its letter case for comparisons,
and its current directories. -/
structure Host where
  windows : Bool
  upper : Char → Char
  isWhiteSpace : Char → Bool
  currentDrive : Char
  /-- The current directory of a drive, without the drive itself. -/
  currentDirectory : Char → List Char
  upper_slash : ∀ letter, (upper letter == '/') = (letter == '/')
  upper_backslash : ∀ letter, (upper letter == '\\') = (letter == '\\')
  currentDrive_valid : isValidDriveChar currentDrive = true

/-- A host that takes letters as they are. -/
def Host.literal (windows : Bool) (directory : List Char) : Host where
  windows
  upper := id
  isWhiteSpace := Char.isWhitespace
  currentDrive := 'C'
  currentDirectory := fun _ => directory
  upper_slash := fun _ => rfl
  upper_backslash := fun _ => rfl
  currentDrive_valid := rfl

inductive PathError
  | nullCharacter
deriving DecidableEq, Repr

section HostPaths

variable (host : Host)

def Host.isDirectorySeparator (letter : Char) : Bool :=
  letter == '/' || (host.windows && letter == '\\')

def Host.directorySeparatorChar : Char :=
  if host.windows then '\\' else '/'

/-- Host names compare without case on Windows only. -/
def Host.fold (text : List Char) : List Char :=
  if host.windows then text.map host.upper else text

def Host.hasDrive (path : List Char) : Bool :=
  match path with
  | letter :: ':' :: _ => host.windows && isValidDriveChar letter
  | _ => false

def Host.isPathRooted (path : List Char) : Bool :=
  path.head?.any host.isDirectorySeparator || host.hasDrive path

def Host.isPathFullyQualified (path : List Char) : Bool :=
  if host.windows then
    match path with
    | first :: second :: rest =>
        if host.isDirectorySeparator first then
          second == '?' || host.isDirectorySeparator second
        else
          isValidDriveChar first && second == ':' && rest.head?.any host.isDirectorySeparator
    | _ => false
  else path.head?.any host.isDirectorySeparator

def Host.combine (first second : List Char) : List Char :=
  if first = [] then second
  else if second = [] then first
  else if host.isPathRooted second then second
  else if first.getLast?.any host.isDirectorySeparator ||
      second.head?.any host.isDirectorySeparator then first ++ second
  else first ++ host.directorySeparatorChar :: second

/-- The length of a path's root: the separator, the drive with its separator, or
a network share. -/
def Host.rootLength (path : List Char) : ℕ :=
  if host.windows then
    match path with
    | first :: second :: rest =>
        if host.isDirectorySeparator first then
          if host.isDirectorySeparator second then
            let server := rest.takeWhile (!host.isDirectorySeparator ·)
            let share := (rest.drop (server.length + 1)).takeWhile (!host.isDirectorySeparator ·)
            min path.length (2 + server.length + 1 + share.length)
          else 1
        else if isValidDriveChar first && second == ':' then
          if rest.head?.any host.isDirectorySeparator then 3 else 2
        else 0
    | [single] => if host.isDirectorySeparator single then 1 else 0
    | [] => 0
  else if path.head?.any host.isDirectorySeparator then 1 else 0

def Host.trimEndingDirectorySeparator (path : List Char) : List Char :=
  if path.getLast?.any host.isDirectorySeparator &&
      host.rootLength path ≠ path.length then path.dropLast
  else path

/-! ### Places -/

/-- Where a path leads: its segments from the top of the local volumes or of the
network.  On Windows the first local segment is the drive. -/
structure Place where
  network : Bool
  components : List (List Char)
deriving DecidableEq, Repr

/-- The start of a path: the volume it is on, the segments that `..` cannot take
away, and the segments to walk. -/
structure Origin where
  network : Bool
  base : List (List Char)
  floor : ℕ
  parts : List (List Char)

def Host.segments (path : List Char) : List (List Char) :=
  PathSegments.segments host.isDirectorySeparator path

def onDrive (letter : Char) (parts : List (List Char)) : Origin :=
  ⟨false, [[letter, ':']], 1, parts⟩

def Host.origin (path : List Char) : Origin :=
  if host.windows then
    if host.isPathRooted path then
      match path with
      | first :: second :: rest =>
          if host.isDirectorySeparator first then
            if host.isDirectorySeparator second then
              ⟨true, [], 2, host.segments rest⟩
            else onDrive host.currentDrive (host.segments path)
          else if rest.head?.any host.isDirectorySeparator then
            onDrive first (host.segments rest)
          else
            onDrive first
              (host.segments (host.currentDirectory first) ++ host.segments rest)
      | _ => onDrive host.currentDrive (host.segments path)
    else
      onDrive host.currentDrive (host.segments (host.currentDirectory host.currentDrive) ++
          host.segments path)
  else if host.isPathRooted path then ⟨false, [], 0, host.segments path⟩
  else
    ⟨false, [], 0, host.segments (host.currentDirectory host.currentDrive) ++ host.segments path⟩

def Origin.place (origin : Origin) : Place :=
  ⟨origin.network, resolve ['.'] ['.', '.'] origin.floor origin.base origin.parts⟩

def Host.place (path : List Char) : Place :=
  (host.origin path).place

/-- The top of a local volume, whose text ends in a separator. -/
def Host.isVolumeRoot (place : Place) : Bool :=
  !place.network && place.components.length ≤ if host.windows then 1 else 0

def Host.text (place : Place) : List Char :=
  let joined := [host.directorySeparatorChar].intercalate place.components
  if host.windows then
    if place.network then '\\' :: '\\' :: joined
    else if host.isVolumeRoot place then joined ++ ['\\']
    else joined
  else '/' :: joined

def Host.getFullPath (path : List Char) : Except PathError (List Char) :=
  if Char.ofNat 0 ∈ path then .error .nullCharacter
  else
    let place := host.place path
    if path.getLast?.any host.isDirectorySeparator && !host.isVolumeRoot place
    then .ok (host.text place ++ [host.directorySeparatorChar])
    else .ok (host.text place)

end HostPaths

/-! ## Mounts -/

section Resolution

variable (host : Host)

def Host.equalsIgnoreCase (first second : List Char) : Bool :=
  first.map host.upper == second.map host.upper

def Host.startsWithIgnoreCase (text front : List Char) : Bool :=
  (front.map host.upper).isPrefixOf (text.map host.upper)

def mountSegments (relativePath : List Char) : List (List Char) :=
  resolve ['.'] ['.', '.'] 0 []
    (PathSegments.segments (fun letter => letter == '/' || letter == '\\') relativePath)

def normalizeMountRelativePath (relativePath : List Char) : List Char :=
  [host.directorySeparatorChar].intercalate (mountSegments relativePath)

def normalizeGuestStatCachePath (guestPath : List Char) : Option (List Char) :=
  let normalized :=
    (guestPath.map fun letter => if letter = '\\' then '/' else letter).rdropWhile (· == '/')
  if normalized = [] then none
  else if normalized.head? = some '/' then some normalized
  else some ('/' :: normalized)

structure RegisteredMount where
  mountPoint : List Char
  hostRoot : List Char
deriving DecidableEq, Repr

def RegisteredMount.covers (mount : RegisteredMount) (guestPath : List Char) :
    Bool :=
  host.equalsIgnoreCase guestPath mount.mountPoint ||
    host.startsWithIgnoreCase guestPath (mount.mountPoint ++ ['/'])

def matchedMount (mounts : List RegisteredMount) (guestPath : List Char) :
    Option RegisteredMount :=
  mounts.foldl (fun matched mount =>
      if mount.covers host guestPath && matched.all (·.mountPoint.length < mount.mountPoint.length)
      then some mount
      else matched)
    none

def registeredMount (mounts : List RegisteredMount) (guestPath : List Char) :
    Option (RegisteredMount × List Char) := do
  let normalized ← normalizeGuestStatCachePath guestPath
  let mount ← matchedMount host mounts normalized
  return (mount, (normalized.drop mount.mountPoint.length).dropWhile (· == '/'))

def Host.isContained (candidate hostRoot : List Char) : Bool :=
  host.fold candidate == host.fold hostRoot ||
    (host.fold (host.trimEndingDirectorySeparator hostRoot ++
      [host.directorySeparatorChar])).isPrefixOf (host.fold candidate)

def tryResolveRegisteredGuestMount (mounts : List RegisteredMount)
    (guestPath : List Char) : Except PathError (Option (List Char)) :=
  match registeredMount host mounts guestPath with
  | none => .ok none
  | some (mount, relativePath) => do
      let candidate ← host.getFullPath (host.combine mount.hostRoot
          (normalizeMountRelativePath host relativePath))
      if host.isContained candidate mount.hostRoot then return some candidate
      else return none

/-- The host directories behind the built-in prefixes; `app0` may be unset. -/
structure BuiltInRoots where
  devlogApp : List Char
  temp0 : List Char
  download0 : List Char
  hostapp : List Char
  app0 : Option (List Char)

inductive BuiltInMount
  | under (root relativePath : List Char)
  | itself (root : List Char)
  | none
deriving DecidableEq, Repr

def prefixRule (front root guestPath : List Char) (otherwise : BuiltInMount) :
    BuiltInMount :=
  if host.startsWithIgnoreCase guestPath front then
    .under root (guestPath.drop front.length)
  else otherwise

def nameRule (names : List (List Char)) (root guestPath : List Char)
    (otherwise : BuiltInMount) : BuiltInMount :=
  if names.any (host.equalsIgnoreCase guestPath) then .itself root
  else otherwise

def app0Mount (root guestPath : List Char) : BuiltInMount :=
  if guestPath ∈ [['$'], ['$', '/'], ['$', '\\']] then .itself root
  else if ['$', '/'].isPrefixOf guestPath || ['$', '\\'].isPrefixOf guestPath
  then .under root (guestPath.drop 2)
  else
    nameRule host ["/app0".toList, "app0".toList] root guestPath <|
    prefixRule host "/app0/".toList root guestPath <|
    prefixRule host "app0/".toList root guestPath <|
    if !host.isPathFullyQualified guestPath && guestPath.head? ≠ some '/' &&
        guestPath.head? ≠ some '\\'
    then .under root guestPath
    else .none

def builtInMount (roots : BuiltInRoots) (guestPath : List Char) : BuiltInMount :=
  prefixRule host "/devlog/app/".toList roots.devlogApp guestPath <|
  prefixRule host "devlog/app/".toList roots.devlogApp guestPath <|
  nameRule host ["/devlog/app".toList, "devlog/app".toList] roots.devlogApp guestPath <|
  prefixRule host "/temp0/".toList roots.temp0 guestPath <|
  nameRule host ["/temp0".toList] roots.temp0 guestPath <|
  prefixRule host "/download0/".toList roots.download0 guestPath <|
  prefixRule host "download0/".toList roots.download0 guestPath <|
  nameRule host ["/download0".toList, "download0".toList] roots.download0 guestPath <|
  prefixRule host "/hostapp/".toList roots.hostapp guestPath <|
  prefixRule host "hostapp/".toList roots.hostapp guestPath <|
  nameRule host ["/hostapp".toList, "hostapp".toList] roots.hostapp guestPath <|
  match roots.app0 with
  | some root => app0Mount host root guestPath
  | none => .none

def BuiltInMount.hostPath (guestPath : List Char) : BuiltInMount → List Char
  | .under root relativePath =>
      host.combine root (normalizeMountRelativePath host relativePath)
  | .itself root => root
  | .none => guestPath

def resolveGuestPath (roots : BuiltInRoots) (mounts : List RegisteredMount)
    (guestPath : List Char) : Except PathError (List Char) :=
  if guestPath.all host.isWhiteSpace then .ok guestPath
  else do
    match ← tryResolveRegisteredGuestMount host mounts guestPath with
    | some mountedPath => return mountedPath
    | none => return (builtInMount host roots guestPath).hostPath host guestPath

end Resolution

/-! ## The mount table -/

structure GuestMounts (host : Host) where
  mounts : List RegisteredMount
  fullRoots : ∀ mount ∈ mounts, ∃ path,
    host.getFullPath path = .ok mount.hostRoot

section Registration

variable {host : Host}

def GuestMounts.empty : GuestMounts host :=
  ⟨[], by simp⟩

def GuestMounts.set (table : GuestMounts host) (mountPoint hostRoot : List Char)
    (isFull : ∃ path, host.getFullPath path = .ok hostRoot) : GuestMounts host :=
  if table.mounts.any (host.equalsIgnoreCase ·.mountPoint mountPoint) then
    ⟨table.mounts.map fun mount =>
        if host.equalsIgnoreCase mount.mountPoint mountPoint then
          { mount with hostRoot := hostRoot }
        else mount,
      by
        intro mount member
        obtain ⟨earlier, earlierMem, rfl⟩ := List.mem_map.mp member
        split
        · exact isFull
        · exact table.fullRoots earlier earlierMem⟩
  else
    ⟨table.mounts ++ [⟨mountPoint, hostRoot⟩], by
      intro mount member
      rcases List.mem_append.mp member with earlier | isNew
      · exact table.fullRoots mount earlier
      · rw [List.mem_singleton.mp isNew]
        exact isFull⟩

def GuestMounts.registerGuestPathMount (table : GuestMounts host)
    (guestMountPoint hostRoot : List Char) : Option (GuestMounts host) :=
  if guestMountPoint.all host.isWhiteSpace || hostRoot.all host.isWhiteSpace then
    none
  else
    match normalizeGuestStatCachePath guestMountPoint with
    | none => none
    | some mountPoint =>
        if mountPoint = ['/'] then none
        else
          match isFull : host.getFullPath hostRoot with
          | .error _ => none
          | .ok normalizedHostRoot =>
              some (table.set mountPoint normalizedHostRoot ⟨hostRoot, isFull⟩)

def GuestMounts.unregisterGuestPathMount (table : GuestMounts host)
    (guestMountPoint : List Char) : GuestMounts host :=
  match normalizeGuestStatCachePath guestMountPoint with
  | none => table
  | some mountPoint =>
      ⟨table.mounts.filter (!host.equalsIgnoreCase ·.mountPoint mountPoint),
        fun mount member => table.fullRoots mount (List.mem_filter.mp member).1⟩

end Registration

end GuestPaths
end SharpEmu
