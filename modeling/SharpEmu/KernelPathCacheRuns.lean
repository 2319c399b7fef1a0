import SharpEmu.KernelPathCaches
import SharpEmu.TransitionRuns

/-!
# When the path caches agree with the files

A remembered miss is right while no guest path with its key has a host path that
exists, and a remembered size while it is the size at its full path.  Each
operation changes the files in one of six ways; the condition on an operation says
that the keys it leaves behind do not see that change.
-/

namespace SharpEmu.KernelPaths

open GuestPaths KernelFiles

/-! ## What the changes of the files show -/

/-- Something that a path with this full path exists by. -/
def Entry.shownUnder (host : Host) (key : List Char) : Entry → Bool
  | .directory => true
  | .file _ => !endsInDirectorySeparator host key

def showsUnder (host : Host) (key : List Char) (entry : Option Entry) : Bool :=
  entry.any (Entry.shownUnder host key)

section Changes

variable {mapping : PathMapping} {files made : FileSystem}
variable {guestPath key : List Char} {place top source target : Place}

theorem exists_eq_showsUnder : (fileExists mapping files key || directoryExists mapping files key) =
      showsUnder mapping.host key (files.entries (placeOf mapping.host key)) := by
  rw [fileExists, directoryExists, FileSystem.isDirectory, showsUnder]
  cases files.entries (placeOf mapping.host key) with
  | none => simp
  | some entry =>
    cases entry with
    | directory => simp [Entry.shownUnder]
    | file id => simp [Entry.shownUnder]

theorem isPresent_iff : isPresent mapping files guestPath = true ↔
      ∃ key, mapping.key guestPath = some key ∧ showsUnder mapping.host key
          (files.entries (placeOf mapping.host key)) = true := by
  rw [isPresent]
  cases isKey : mapping.key guestPath with
  | none => simp
  | some key => simp [exists_eq_showsUnder]

theorem not_isPresent_of_entries (absent : ¬isPresent mapping files guestPath = true)
    (same : ∀ key, mapping.key guestPath = some key → showsUnder mapping.host key
          (made.entries (placeOf mapping.host key)) = true →
        showsUnder mapping.host key (files.entries (placeOf mapping.host key)) = true) :
    ¬isPresent mapping made guestPath = true := by
  intro present
  obtain ⟨key, isKey, shows⟩ := isPresent_iff.mp present
  exact absent (isPresent_iff.mpr ⟨key, isKey, same key isKey shows⟩)

theorem sizeAt_congr (sameEntry : made.entries place = files.entries place)
    (sameSizes : ∀ id, files.entries place = some (.file id) → made.sizes id = files.sizes id) :
    made.sizeAt place = files.sizeAt place := by
  rw [FileSystem.sizeAt, FileSystem.sizeAt, sameEntry]
  cases isEntry : files.entries place with
  | none => rfl
  | some entry =>
    cases entry with
    | directory => rfl
    | file id =>
      change some (made.sizes id) = some (files.sizes id)
      rw [sameSizes id isEntry]

variable {size : ℕ}

theorem entries_ne_none_of_sizeAt
    (isSize : files.sizeAt place = some size) : files.entries place ≠ none := by
  intro isNone
  rw [FileSystem.sizeAt, isNone] at isSize
  cases isSize

theorem sizeAt_makeDirectories (isSize : files.sizeAt place = some size) :
    (files.makeDirectories top).sizeAt place = some size := by
  have occupied := entries_ne_none_of_sizeAt isSize
  rw [← isSize]
  apply sizeAt_congr
  · exact if_neg fun both => occupied both.2
  · exact fun _ _ => rfl

theorem sizeAt_makeFile (free : files.entries top = none)
    (isSize : files.sizeAt place = some size) :
    (files.makeFile top).sizeAt place = some size := by
  have apart : place ≠ top := by
    rintro rfl
    exact entries_ne_none_of_sizeAt isSize free
  rw [← isSize]
  apply sizeAt_congr
  · exact Function.update_of_ne apart _ _
  · intro id isFile
    have below := files.fresh place id isFile
    exact Function.update_of_ne (Nat.ne_of_lt below) _ _

theorem sizeAt_resize {id new : ℕ} (isSize : files.sizeAt place = some size)
    (keeps : files.entries place = some (.file id) → size = new) :
    (files.resize id new).sizeAt place = some size := by
  by_cases isFile : files.entries place = some (.file id)
  · rw [keeps isFile]
    change (files.entries place).map _ = _
    rw [isFile]
    exact congrArg some (Function.update_self _ _ _)
  · rw [← isSize]
    apply sizeAt_congr
    · rfl
    · intro other isOther
      have different : other ≠ id := by
        rintro rfl
        exact isFile isOther
      exact Function.update_of_ne different _ _

theorem sizeAt_remove (isSize : files.sizeAt place = some size)
    (apart : place ≠ top) : (files.remove top).sizeAt place = some size := by
  rw [← isSize]
  exact sizeAt_congr (Function.update_of_ne apart _ _) fun _ _ => rfl

theorem sizeAt_move (isSize : files.sizeAt place = some size)
    (inside : isWithin place target = true →
      files.sizeAt (movedFrom source target place) = some size)
    (outside : isWithin place target = false → isWithin place source = false) :
    (files.move source target).sizeAt place = some size := by
  cases within : isWithin place target with
  | true =>
    rw [← inside within]
    change ((if isWithin place target = true then _ else _ : Option Entry)).map
      _ = _
    rw [if_pos within]
    rfl
  | false =>
    rw [← isSize]
    apply sizeAt_congr
    · change (if isWithin place target = true then _ else _ : Option Entry) = _
      rw [within, if_neg Bool.false_ne_true, outside within, if_neg Bool.false_ne_true]
    · exact fun _ _ => rfl

theorem not_isPresent_makeDirectories (absent : ¬isPresent mapping files guestPath = true)
    (apart : ∀ place, mapping.place guestPath = some place →
      isWithin top place = true → files.entries place ≠ none) :
    ¬isPresent mapping (files.makeDirectories top) guestPath = true := by
  apply not_isPresent_of_entries absent
  intro key isKey shows
  have isPlace : mapping.place guestPath = some (placeOf mapping.host key) := by
    rw [PathMapping.place, isKey]
    rfl
  have kept : (files.makeDirectories top).entries (placeOf mapping.host key) =
      files.entries (placeOf mapping.host key) :=
    if_neg fun both => apart _ isPlace both.1 both.2
  rwa [kept] at shows

theorem not_isPresent_makeFile (absent : ¬isPresent mapping files guestPath = true)
    (apart : ∀ key, mapping.key guestPath = some key → placeOf mapping.host key = top →
        endsInDirectorySeparator mapping.host key = true) :
    ¬isPresent mapping (files.makeFile top) guestPath = true := by
  apply not_isPresent_of_entries absent
  intro key isKey shows
  by_cases same : placeOf mapping.host key = top
  · change showsUnder _ _ (Function.update files.entries top _ _) = true at shows
    rw [same, Function.update_self] at shows
    change (!endsInDirectorySeparator mapping.host key) = true at shows
    rw [apart key isKey same] at shows
    cases shows
  · have kept : (files.makeFile top).entries (placeOf mapping.host key) =
        files.entries (placeOf mapping.host key) :=
      Function.update_of_ne same _ _
    rwa [kept] at shows

theorem not_isPresent_remove (absent : isPresent mapping files guestPath = true →
      mapping.place guestPath = some top) :
    ¬isPresent mapping (files.remove top) guestPath = true := by
  intro present
  obtain ⟨key, isKey, shows⟩ := isPresent_iff.mp present
  by_cases same : placeOf mapping.host key = top
  · change showsUnder _ _ (Function.update files.entries top _ _) = true at shows
    rw [same, Function.update_self] at shows
    cases shows
  · have kept : (files.remove top).entries (placeOf mapping.host key) =
        files.entries (placeOf mapping.host key) :=
      Function.update_of_ne same _ _
    rw [kept] at shows
    have atTop := absent (isPresent_iff.mpr ⟨key, isKey, shows⟩)
    rw [PathMapping.place, isKey] at atTop
    exact same (Option.some.inj atTop)

def showsAfterMove (mapping : PathMapping) (files : FileSystem)
    (source target : Place) (key : List Char) : Bool :=
  let place := placeOf mapping.host key
  if isWithin place target then
    showsUnder mapping.host key (files.entries (movedFrom source target place))
  else
    !isWithin place source && showsUnder mapping.host key (files.entries place)

theorem isPresent_move_iff : isPresent mapping (files.move source target) guestPath = true ↔
      ∃ key, mapping.key guestPath = some key ∧
        showsAfterMove mapping files source target key = true := by
  rw [isPresent_iff]
  apply exists_congr
  intro key
  apply and_congr_right
  intro _
  change showsUnder _ _ (if _ then _ else if _ then _ else _) = true ↔ _
  rw [showsAfterMove]
  cases isWithin (placeOf mapping.host key) target with
  | true => simp
  | false =>
    cases isWithin (placeOf mapping.host key) source with
    | true => simp [showsUnder]
    | false => simp

end Changes

/-! ## The conditions -/

section Conditions

variable (mapping : PathMapping)

def State.Missed (state : State) (guestPath : List Char) : Prop :=
  HasMissed mapping.statCacheKey state.negativeStatCache guestPath

def State.keptMisses (state : State) (created : List Char) : Finset (List Char) :=
  state.negativeStatCache \ (mapping.invalidatedKeys created).toFinset

/-- The key of `guestPath` may be remembered: its names satisfy this. -/
def ForSameKey (guestPath : List Char) (absent : List Char → Prop) : Prop :=
  ∀ cacheKey, mapping.statCacheKey guestPath = some cacheKey →
    ∀ other, mapping.statCacheKey other = some cacheKey → absent other

def DirectoriesApart (files : FileSystem) (misses : Finset (List Char)) (top : Place) : Prop :=
  ∀ guestPath, HasMissed mapping.statCacheKey misses guestPath →
    ∀ place, mapping.place guestPath = some place →
      isWithin top place = true → files.entries place ≠ none

def FileApart (misses : Finset (List Char)) (top : Place) : Prop :=
  ∀ guestPath, HasMissed mapping.statCacheKey misses guestPath →
    ∀ key, mapping.key guestPath = some key → placeOf mapping.host key = top →
        endsInDirectorySeparator mapping.host key = true

/-- Remembered sizes of this file, but for those that are forgotten, are the new
one. -/
def ResizesApart (state : State) (id size : ℕ) (forgotten : List Char → Prop) :
    Prop :=
  ∀ key remembered, state.aprFileSizeCache key = some remembered → ¬forgotten key →
      state.files.entries (placeOf mapping.host key) = some (.file id) → remembered = size

def State.opensFile (state : State) (guestPath key : List Char)
    (flags : UInt32) (shouldSkipGuestMovie : Bool) : Bool :=
  !shouldSkipGuestMovie &&
    !(isMutatingOpen flags && mapping.isReadOnlyGuestMutationPath guestPath) &&
      !(hasFlag flags oDirectory || directoryExists mapping state.files key)

structure OpenMeets (state : State) (guestPath key : List Char)
    (flags : UInt32) (made : FileSystem) (opened : Bool) : Prop where
  /-- The directories above the file. -/
  parents : ∀ parent, mapping.parentToCreate guestPath flags = some parent →
    DirectoriesApart mapping state.files
      (if opened && isMutatingOpen flags then state.keptMisses mapping guestPath
        else state.negativeStatCache) parent
  /-- A new file. -/
  creates : opened = true → made.entries (placeOf mapping.host key) = none →
    FileApart mapping
      (if isMutatingOpen flags then state.keptMisses mapping guestPath
        else state.negativeStatCache) (placeOf mapping.host key)
  /-- A file that is emptied. -/
  empties : opened = true → ∀ id,
    made.entries (placeOf mapping.host key) = some (.file id) →
    resolveOpenMode flags (resolveOpenAccess flags) = .create ∨
      resolveOpenMode flags (resolveOpenAccess flags) = .truncate →
        ResizesApart mapping { state with files := made } id 0
          fun other => isMutatingOpen flags = true ∧ other = key

/-- The rename of a file or a directory takes place. -/
def State.renames (state : State) (fromGuest toGuest : List Char)
    (fromKey toKey : List Char) : Bool :=
  !(mapping.isReadOnlyGuestMutationPath fromGuest || mapping.isReadOnlyGuestMutationPath toGuest) &&
    (fileExists mapping state.files fromKey || directoryExists mapping state.files fromKey) &&
    state.files.hasParent (placeOf mapping.host toKey) &&
    canMove mapping state.files fromKey toKey

structure RenameMeets (state : State) (fromGuest toGuest : List Char)
    (fromKey toKey : List Char) : Prop where
  /-- What comes to the new path is not missed there. -/
  arrives : ∀ guestPath,
    HasMissed mapping.statCacheKey (state.keptMisses mapping toGuest) guestPath →
      ∀ key, mapping.key guestPath = some key →
        showsAfterMove mapping state.files (placeOf mapping.host fromKey)
            (placeOf mapping.host toKey) key = true →
          showsUnder mapping.host key
            (state.files.entries (placeOf mapping.host key)) = true
  /-- The old path leads nowhere, however it is spelled. -/
  leaves : ForSameKey mapping fromGuest fun guestPath =>
    ∀ key, mapping.key guestPath = some key →
      showsAfterMove mapping state.files (placeOf mapping.host fromKey)
        (placeOf mapping.host toKey) key = false
  /-- Only the sizes of the two paths themselves were remembered. -/
  sizes : ∀ key size, state.aprFileSizeCache key = some size →
    key ≠ fromKey → key ≠ toKey →
      (isWithin (placeOf mapping.host key) (placeOf mapping.host toKey) = true →
        state.files.sizeAt (movedFrom (placeOf mapping.host fromKey)
          (placeOf mapping.host toKey) (placeOf mapping.host key)) =
            some size) ∧
      (isWithin (placeOf mapping.host key) (placeOf mapping.host toKey) = false →
        isWithin (placeOf mapping.host key) (placeOf mapping.host fromKey) =
          false)

/-- What keeps the caches right in one operation. -/
def Meets (state : State) : Operation → Prop
  | .resolve guestPath =>
      ∀ root, state.rootToMake mapping guestPath = some root →
        ∀ key, pathKey mapping.host root = some key →
          state.files.isBlocked (placeOf mapping.host key) = false →
            DirectoriesApart mapping state.files state.negativeStatCache (placeOf mapping.host key)
  | .stat guestPath filled =>
      (isPresent mapping state.files guestPath = true → filled = true) ∧
        (isPresent mapping state.files guestPath = false → ForSameKey mapping guestPath
            fun other => isPresent mapping state.files other = false)
  | .aprResolve _ => True
  | .openUnderscore guestPath flags shouldSkipGuestMovie refusal =>
      ∀ key, mapping.key guestPath = some key →
        state.opensFile mapping guestPath key flags shouldSkipGuestMovie = true →
        ∀ made, state.ensureOpenParentDirectoryExists mapping guestPath flags = some made →
            OpenMeets mapping state guestPath key flags made (newFileStream mapping made key
                (resolveOpenMode flags (resolveOpenAccess flags))
                (resolveOpenAccess flags) refusal).isOk
  | .write fd position count =>
      fd ≠ 1 → fd ≠ 2 → 0 < count → ∀ stream, state.openFiles fd = some stream →
          stream.access.canWrite = true → ResizesApart mapping state stream.file
              (max (state.files.sizes stream.file) (position + count))
              fun _ => False
  | .ftruncate fd length refused =>
      0 ≤ length → refused = false → ∀ stream, state.openFiles fd = some stream →
          stream.access.canWrite = true →
            ResizesApart mapping state stream.file length.toNat fun _ => False
  | .truncate guestPath length refusal =>
      0 ≤ length → refusal = none → mapping.isReadOnlyGuestMutationPath guestPath = false →
          ∀ key, mapping.key guestPath = some key →
            endsInDirectorySeparator mapping.host key = false →
              ∀ id, state.files.entries (placeOf mapping.host key) = some (.file id) →
                ResizesApart mapping state id length.toNat fun _ => False
  | .mkdir guestPath refusal =>
      refusal = none → mapping.isReadOnlyGuestMutationPath guestPath = false →
        isPresent mapping state.files guestPath = false →
          (mapping.parentPlace guestPath).any state.files.isDirectory = true →
            ∀ place, mapping.place guestPath = some place → state.files.isBlocked place = false →
                DirectoriesApart mapping state.files (state.keptMisses mapping guestPath) place
  | .rmdir guestPath refusal =>
      mapping.isReadOnlyGuestMutationPath guestPath = false →
        if (mapping.key guestPath).any (directoryExists mapping state.files) then
          refusal = none → ∀ place, mapping.place guestPath = some place →
              ForSameKey mapping guestPath (fun other =>
                isPresent mapping state.files other = true → mapping.place other = some place) ∧
                ∀ key, (state.aprFileSizeCache key).isSome → placeOf mapping.host key ≠ place
        else
          ForSameKey mapping guestPath
            fun other => isPresent mapping state.files other = false
  | .unlink guestPath refusal =>
      mapping.isReadOnlyGuestMutationPath guestPath = false →
        (mapping.key guestPath).any (directoryExists mapping state.files) = false →
          if isPresent mapping state.files guestPath then
            refusal = none → ∀ key, mapping.key guestPath = some key →
                ForSameKey mapping guestPath (fun other =>
                  isPresent mapping state.files other = true →
                    mapping.place other = some (placeOf mapping.host key)) ∧
                  ∀ other, (state.aprFileSizeCache other).isSome → other ≠ key →
                      placeOf mapping.host other ≠ placeOf mapping.host key
          else
            ForSameKey mapping guestPath
              fun other => isPresent mapping state.files other = false
  | .rename fromGuest toGuest refusal =>
      refusal = none → ∀ fromKey toKey, mapping.key fromGuest = some fromKey →
          mapping.key toGuest = some toKey →
            state.renames mapping fromGuest toGuest fromKey toKey = true →
              RenameMeets mapping state fromGuest toGuest fromKey toKey

end Conditions

/-! ## What the operations keep -/

structure CachesRight (mapping : PathMapping) (state : State) : Prop where
  misses : MissesRight mapping.statCacheKey state.negativeStatCache
    (isPresent mapping state.files · = true)
  sizes : ValuesRight state.aprFileSizeCache
    (state.files.sizeAt <| placeOf mapping.host ·)

section Preservation

variable {mapping : PathMapping} {state after : State}
variable {guestPath : List Char} {files : FileSystem}

theorem CachesRight.change (right : CachesRight mapping state)
    (fewerMisses : after.negativeStatCache ⊆ state.negativeStatCache)
    (stayAbsent : ∀ guestPath, after.Missed mapping guestPath →
      ¬isPresent mapping state.files guestPath = true →
        ¬isPresent mapping after.files guestPath = true)
    (fewerSizes : ∀ key size, after.aprFileSizeCache key = some size →
      state.aprFileSizeCache key = some size)
    (keepSize : ∀ key size, after.aprFileSizeCache key = some size →
      state.files.sizeAt (placeOf mapping.host key) = some size →
        after.files.sizeAt (placeOf mapping.host key) = some size) :
    CachesRight mapping after :=
  ⟨right.misses.change fewerMisses stayAbsent, right.sizes.change fewerSizes keepSize⟩

theorem CachesRight.withFiles (right : CachesRight mapping state)
    (stayAbsent : ∀ guestPath, state.Missed mapping guestPath →
      ¬isPresent mapping state.files guestPath = true → ¬isPresent mapping files guestPath = true)
    (keepSize : ∀ key size, state.aprFileSizeCache key = some size →
      state.files.sizeAt (placeOf mapping.host key) = some size →
        files.sizeAt (placeOf mapping.host key) = some size) :
    CachesRight mapping { state with files := files } :=
  right.change (Finset.Subset.refl _) stayAbsent (fun _ _ holds => holds) keepSize

theorem CachesRight.add (right : CachesRight mapping state) (guestPath : List Char)
    (absent : ForSameKey mapping guestPath
      fun other => isPresent mapping state.files other = false) :
    CachesRight mapping (state.addNegativeStatCacheForGuestPath mapping guestPath) := by
  rw [State.addNegativeStatCacheForGuestPath]
  cases isKey : mapping.statCacheKey guestPath with
  | none => exact right
  | some cacheKey =>
    refine ⟨right.misses.insert ?_, right.sizes⟩
    intro other sameKey
    simpa using absent cacheKey isKey other sameKey

variable {size : ℕ}

theorem CachesRight.resized {id : ℕ} (right : CachesRight mapping state)
    (apart : ResizesApart mapping state id size fun _ => False) :
    CachesRight mapping { state with files := state.files.resize id size } := by
  apply right.withFiles
  · exact fun _ _ absent => absent
  · intro key remembered holds isSize
    exact sizeAt_resize isSize (apart key remembered holds not_false)

theorem CachesRight.madeDirectories {top : Place} (right : CachesRight mapping state)
    (apart : DirectoriesApart mapping state.files state.negativeStatCache top) :
    CachesRight mapping { state with files := state.files.makeDirectories top } := by
  apply right.withFiles
  · intro other missed absent
    exact not_isPresent_makeDirectories absent (apart other missed)
  · exact fun _ _ _ isSize => sizeAt_makeDirectories isSize

theorem CachesRight.resolve (right : CachesRight mapping state)
    (meets : Meets mapping state (.resolve guestPath)) :
    CachesRight mapping (state.resolveGuestPath mapping guestPath) := by
  rw [State.resolveGuestPath]
  cases isRoot : state.rootToMake mapping guestPath with
  | none => exact right
  | some root =>
    rw [Option.bind_some, State.makeRoot]
    cases isKey : pathKey mapping.host root with
    | none => exact right
    | some key =>
      rw [Option.bind_some, FileSystem.createDirectory]
      cases blocked : state.files.isBlocked (placeOf mapping.host key) with
      | true => exact right
      | false =>
        have made := right.madeDirectories (meets root isRoot key isKey blocked)
        exact ⟨made.misses, made.sizes⟩

theorem CachesRight.stat {filled : Bool} (right : CachesRight mapping state)
    (meets : Meets mapping state (.stat guestPath filled)) :
    CachesRight mapping (state.kernelStat mapping guestPath filled).2 := by
  rw [State.kernelStat]
  split
  · exact right
  · split
    · exact right
    · split
      · cases mapping.statCacheKey guestPath with
        | none => exact right
        | some cacheKey =>
          exact ⟨right.misses.mono (Finset.erase_subset _ _), right.sizes⟩
      · rename_i notFilled
        apply right.add
        apply meets.2
        cases present : isPresent mapping state.files guestPath with
        | false => rfl
        | true =>
          rw [present, meets.1 present] at notFilled
          exact absurd rfl notFilled

theorem CachesRight.aprResolve (right : CachesRight mapping state) :
    CachesRight mapping (state.tryGetAprFileSize mapping guestPath).2 := by
  rw [State.tryGetAprFileSize]
  cases mapping.key guestPath with
  | none => exact right
  | some key =>
    cases isRemembered : state.aprFileSizeCache key with
    | some size =>
      simp only [isRemembered]
      exact right
    | none =>
      cases isSize : state.files.sizeAt (placeOf mapping.host key) with
      | none =>
        simp only [isRemembered, isSize]
        exact right
      | some size =>
        simp only [isRemembered, isSize]
        exact ⟨right.misses, right.sizes.insert isSize⟩

variable {fd : ℤ}

theorem CachesRight.write {position count : ℕ} (right : CachesRight mapping state)
    (meets : Meets mapping state (.write fd position count)) :
    CachesRight mapping (state.kernelWriteUnderscore fd position count).2 := by
  rw [State.kernelWriteUnderscore]
  split
  · exact right
  · rename_i notStandard
    rw [not_or] at notStandard
    cases isStream : state.openFiles fd with
    | none => exact right
    | some stream =>
      change CachesRight mapping (if _ then _ else if _ then _ else _ : Result × State).2
      split
      · exact right
      · rename_i writable
        split
        · exact right
        · rename_i someBytes
          exact right.resized (meets notStandard.1 notStandard.2
            (Nat.pos_of_ne_zero someBytes) stream isStream
            (by simpa using writable))

variable {length : ℤ}

theorem CachesRight.ftruncate {refused : Bool} (right : CachesRight mapping state)
    (meets : Meets mapping state (.ftruncate fd length refused)) :
    CachesRight mapping (state.kernelFtruncateCore fd length refused).2 := by
  rw [State.kernelFtruncateCore]
  split
  · exact right
  · rename_i notNegative
    cases isStream : state.openFiles fd with
    | none => exact right
    | some stream =>
      change CachesRight mapping (if _ then _ else if _ then _ else _ : Result × State).2
      split
      · exact right
      · rename_i writable
        split
        · exact right
        · rename_i notRefused
          exact right.resized (meets (Int.not_lt.mp notNegative)
            (by simpa using notRefused) stream isStream
            (by simpa using writable))

variable {refusal : Option HostException}

theorem CachesRight.truncate (right : CachesRight mapping state)
    (meets : Meets mapping state (.truncate guestPath length refusal)) :
    CachesRight mapping (state.kernelTruncateCore mapping guestPath length refusal).2 := by
  rw [State.kernelTruncateCore]
  split
  · exact right
  · rename_i notNegative
    split
    · exact right
    · rename_i writable
      split
      · exact right
      · rename_i key isKey
        split
        · exact right
        · exact right
        · exact right
        · split
          · exact right
          · rename_i isName
            split
            · exact right
            · rename_i id isFile
              exact right.resized (meets (Int.not_lt.mp notNegative) rfl
                (by simpa using writable) key isKey (by simpa using isName) id
                isFile)
            · split <;> exact right

theorem CachesRight.removed {top : Place} (right : CachesRight mapping state)
    (isAfter : after.files = state.files.remove top)
    (fewerMisses : after.negativeStatCache ⊆ state.negativeStatCache)
    (fewerSizes : ∀ key size, after.aprFileSizeCache key = some size →
      state.aprFileSizeCache key = some size ∧ placeOf mapping.host key ≠ top) :
    CachesRight mapping after := by
  apply right.change fewerMisses
  · intro other _ absent
    rw [isAfter]
    exact not_isPresent_remove fun present => absurd present absent
  · exact fun key size holds => (fewerSizes key size holds).1
  · intro key size holds isSize
    rw [isAfter]
    exact sizeAt_remove isSize (fewerSizes key size holds).2

theorem CachesRight.mkdir (right : CachesRight mapping state)
    (meets : Meets mapping state (.mkdir guestPath refusal)) :
    CachesRight mapping (state.kernelMkdir mapping guestPath refusal).2 := by
  unfold State.kernelMkdir
  split
  · exact right
  · split
    · exact right
    · rename_i writable
      split
      · exact right
      · rename_i missing
        split
        · exact right
        · rename_i someParent
          split
          · exact right
          · exact right
          · exact right
          · exact right
          · rename_i files isMade
            obtain ⟨place, isPlace, isMade⟩ := Option.bind_eq_some_iff.mp isMade
            rw [FileSystem.createDirectory] at isMade
            split at isMade
            · cases isMade
            · rename_i notBlocked
              obtain rfl := Option.some.inj isMade
              have kept : CachesRight mapping
                  (state.invalidateNegativeStatCacheForPathAndAncestors mapping guestPath) :=
                ⟨right.misses.mono Finset.sdiff_subset, right.sizes⟩
              have made := kept.madeDirectories
                (meets rfl (by simpa using writable) (by simpa using missing)
                  (by simpa using someParent) place isPlace
                  (by simpa using notBlocked))
              exact ⟨made.misses, made.sizes⟩

theorem CachesRight.rmdir (right : CachesRight mapping state)
    (meets : Meets mapping state (.rmdir guestPath refusal)) :
    CachesRight mapping (state.kernelRmdir mapping guestPath refusal).2 := by
  unfold State.kernelRmdir
  split
  · exact right
  · split
    · exact right
    · rename_i writable
      replace meets := meets (by simpa using writable)
      split
      · rename_i noDirectory
        apply right.add
        rw [Option.filter_eq_none_iff] at noDirectory
        rw [if_neg] at meets
        · exact meets
        · intro isDirectory
          obtain ⟨key, isKey, isDirectory⟩ := (Option.any_eq_true _ _).mp isDirectory
          exact noDirectory key isKey isDirectory
      · exact right
      · exact right
      · exact right
      · rename_i key isDirectory
        obtain ⟨isKey, isDirectory⟩ := Option.filter_eq_some_iff.mp isDirectory
        rw [isKey, Option.any_some, if_pos isDirectory] at meets
        have isPlace : mapping.place guestPath = some (placeOf mapping.host key) := by
          rw [PathMapping.place, isKey]
          rfl
        obtain ⟨sameKey, noSizes⟩ := meets rfl _ isPlace
        apply CachesRight.add
        · apply right.removed rfl Finset.sdiff_subset
          intro other size holds
          exact ⟨holds, noSizes other (Option.isSome_of_eq_some holds)⟩
        · intro cacheKey isCacheKey other otherKey
          have gone := not_isPresent_remove (sameKey cacheKey isCacheKey other otherKey)
          exact Bool.eq_false_iff.mpr gone

theorem CachesRight.unlink (right : CachesRight mapping state)
    (meets : Meets mapping state (.unlink guestPath refusal)) :
    CachesRight mapping (state.kernelUnlink mapping guestPath refusal).2 := by
  unfold State.kernelUnlink
  split
  · exact right
  · split
    · exact right
    · rename_i writable
      split
      · exact right
      · rename_i noDirectory
        replace meets := meets (by simpa using writable) (by simpa using noDirectory)
        split
        · rename_i noFile
          apply right.add
          rw [if_neg] at meets
          · exact meets
          · intro present
            obtain ⟨key, isKey, exists_⟩ := (Option.any_eq_true _ _).mp present
            rw [Option.filter_eq_none_iff] at noFile
            rw [isKey] at noDirectory
            rcases Bool.or_eq_true_iff.mp exists_ with isFile | isDirectory
            · exact noFile key isKey isFile
            · exact noDirectory isDirectory
        · exact right
        · exact right
        · exact right
        · rename_i key isFile
          obtain ⟨isKey, isFile⟩ := Option.filter_eq_some_iff.mp isFile
          have present : isPresent mapping state.files guestPath = true := by
            rw [isPresent, isKey, Option.any_some, isFile]
            rfl
          rw [if_pos present] at meets
          obtain ⟨sameKey, noSizes⟩ := meets rfl key isKey
          apply CachesRight.add
          · apply right.removed rfl Finset.sdiff_subset
            intro other size holds
            obtain ⟨different, holds⟩ := ne_of_update_none holds
            exact ⟨holds, noSizes other (Option.isSome_of_eq_some holds) different⟩
          · intro cacheKey isCacheKey other otherKey
            have gone := not_isPresent_remove (sameKey cacheKey isCacheKey other otherKey)
            exact Bool.eq_false_iff.mpr gone

variable {fromGuest toGuest : List Char}

theorem CachesRight.moved {fromKey toKey : List Char} (right : CachesRight mapping state)
    (meets : RenameMeets mapping state fromGuest toGuest fromKey toKey) :
    CachesRight mapping ((((({ state with
        files := state.files.move (placeOf mapping.host fromKey)
          (placeOf mapping.host toKey) } : State
        ).invalidateNegativeStatCacheForPathAndAncestors mapping
          toGuest).addNegativeStatCacheForGuestPath mapping fromGuest).invalidateAprFileSizeCache
              fromKey).invalidateAprFileSizeCache toKey) := by
  have forgotten : CachesRight mapping { state with
        files := state.files.move (placeOf mapping.host fromKey) (placeOf mapping.host toKey)
        negativeStatCache := state.keptMisses mapping toGuest
        aprFileSizeCache := Function.update
          (Function.update state.aprFileSizeCache fromKey none) toKey none } := by
    apply right.change
    · exact Finset.sdiff_subset
    · intro other missed absent present
      obtain ⟨key, isKey, shows⟩ := isPresent_move_iff.mp present
      exact absent (isPresent_iff.mpr ⟨key, isKey, meets.arrives other missed key isKey shows⟩)
    · intro key size holds
      obtain ⟨-, holds⟩ := ne_of_update_none holds
      exact (ne_of_update_none holds).2
    · intro key size holds isSize
      obtain ⟨notTo, holds⟩ := ne_of_update_none holds
      obtain ⟨notFrom, holds⟩ := ne_of_update_none holds
      obtain ⟨inside, outside⟩ := meets.sizes key size holds notFrom notTo
      exact sizeAt_move isSize inside outside
  have added := forgotten.add fromGuest (by
    intro cacheKey isCacheKey other otherKey
    cases present : isPresent mapping (state.files.move (placeOf mapping.host fromKey)
        (placeOf mapping.host toKey)) other with
    | false => rfl
    | true =>
      obtain ⟨key, isKey, shows⟩ := isPresent_move_iff.mp present
      rw [meets.leaves cacheKey isCacheKey other otherKey key isKey] at shows
      cases shows)
  rw [State.addNegativeStatCacheForGuestPath] at added ⊢
  cases isCacheKey : mapping.statCacheKey fromGuest with
  | none =>
    rw [isCacheKey] at added
    exact ⟨added.misses, added.sizes⟩
  | some cacheKey =>
    rw [isCacheKey] at added
    exact ⟨added.misses, added.sizes⟩

theorem CachesRight.rename (right : CachesRight mapping state)
    (meets : Meets mapping state (.rename fromGuest toGuest refusal)) :
    CachesRight mapping (state.kernelRenameCore mapping fromGuest toGuest refusal).2 := by
  unfold State.kernelRenameCore
  split
  · exact right
  · rename_i writable
    split
    · rename_i fromKey toKey isFrom isTo
      split
      · exact right
      · rename_i present
        split
        · exact right
        · exact right
        · exact right
        · split
          · exact right
          · rename_i someParent
            split
            · exact right
            · rename_i movable
              apply right.moved
              apply meets rfl fromKey toKey isFrom isTo
              rw [Bool.not_eq_true] at writable
              rw [Bool.not_eq_true, Bool.not_eq_false'] at present
              rw [Bool.not_eq_false] at someParent movable
              rw [State.renames, writable, present, someParent, movable]
              rfl
    · exact right

variable {flags : UInt32}

theorem not_isPresent_ensured {made : FileSystem} {misses : Finset (List Char)} {other : List Char}
    (isMade : state.ensureOpenParentDirectoryExists mapping guestPath flags = some made)
    (apart : ∀ parent, mapping.parentToCreate guestPath flags = some parent →
      DirectoriesApart mapping state.files misses parent)
    (missed : HasMissed mapping.statCacheKey misses other)
    (absent : ¬isPresent mapping state.files other = true) :
    ¬isPresent mapping made other = true := by
  rw [State.ensureOpenParentDirectoryExists] at isMade
  cases isParent : mapping.parentToCreate guestPath flags with
  | none =>
    rw [isParent] at isMade
    obtain rfl := Option.some.inj isMade
    exact absent
  | some parent =>
    rw [isParent] at isMade
    change (if _ then _ else _) = _ at isMade
    split at isMade
    · cases isMade
    · obtain rfl := Option.some.inj isMade
      exact not_isPresent_makeDirectories absent (apart parent isParent other missed)

theorem sizeAt_ensured {made : FileSystem} {place : Place}
    (isMade : state.ensureOpenParentDirectoryExists mapping guestPath flags = some made)
    (isSize : state.files.sizeAt place = some size) :
    made.sizeAt place = some size := by
  rw [State.ensureOpenParentDirectoryExists] at isMade
  cases isParent : mapping.parentToCreate guestPath flags with
  | none =>
    rw [isParent] at isMade
    obtain rfl := Option.some.inj isMade
    exact isSize
  | some parent =>
    rw [isParent] at isMade
    change (if _ then _ else _) = _ at isMade
    split at isMade
    · cases isMade
    · obtain rfl := Option.some.inj isMade
      exact sizeAt_makeDirectories isSize

variable {file : ℕ}

theorem newFileStream_cases {key : List Char} {mode : FileMode} {access : FileAccess}
    {made opened : FileSystem}
    (isOpened : newFileStream mapping made key mode access refusal = .ok (file, opened)) :
    (made.entries (placeOf mapping.host key) = none ∧
        opened = made.makeFile (placeOf mapping.host key)) ∨
      (∃ id, made.entries (placeOf mapping.host key) = some (.file id) ∧
        (mode = .create ∨ mode = .truncate) ∧ opened = made.resize id 0) ∨
      opened = made := by
  unfold newFileStream at isOpened
  dsimp only at isOpened
  split at isOpened
  · cases isOpened
  · split at isOpened
    · cases isOpened
    · split at isOpened
      · cases isOpened
      · split at isOpened
        · cases isOpened
        · rename_i found isFile
          split at isOpened
          · rename_i empties
            cases isOpened
            exact .inr (.inl ⟨file, isFile, empties, rfl⟩)
          · cases isOpened
            exact .inr (.inr rfl)
        · rename_i isFree
          split at isOpened
          · cases isOpened
          · cases isOpened
            exact .inl ⟨isFree, rfl⟩

def openedMisses (mapping : PathMapping) (state : State)
    (guestPath : List Char) (flags : UInt32) : Finset (List Char) :=
  if isMutatingOpen flags then state.keptMisses mapping guestPath
  else state.negativeStatCache

theorem openedMisses_subset :
    openedMisses mapping state guestPath flags ⊆ state.negativeStatCache := by
  rw [openedMisses]
  split
  · exact Finset.sdiff_subset
  · exact Finset.Subset.refl _

theorem CachesRight.opened {key : List Char} {made files : FileSystem}
    (right : CachesRight mapping state)
    (isMade : state.ensureOpenParentDirectoryExists mapping guestPath flags = some made)
    (isOpened : newFileStream mapping made key (resolveOpenMode flags (resolveOpenAccess flags))
      (resolveOpenAccess flags) refusal = .ok (file, files))
    (meets : OpenMeets mapping state guestPath key flags made true)
    (isFiles : after.files = files)
    (isMisses : after.negativeStatCache = openedMisses mapping state guestPath flags)
    (forgets : ∀ other size, after.aprFileSizeCache other = some size →
      state.aprFileSizeCache other = some size ∧ ¬(isMutatingOpen flags = true ∧ other = key)) :
    CachesRight mapping after := by
  have misses_eq : (if true && isMutatingOpen flags then
      state.keptMisses mapping guestPath else state.negativeStatCache) =
        openedMisses mapping state guestPath flags := by
    rw [Bool.true_and, openedMisses]
  apply right.change
  · rw [isMisses]
    exact openedMisses_subset
  · intro other missed absent
    rw [State.Missed, isMisses] at missed
    have inMade := not_isPresent_ensured isMade (misses_eq ▸ meets.parents) missed absent
    rw [isFiles]
    rcases newFileStream_cases isOpened with
      ⟨isFree, rfl⟩ | ⟨id, isFile, empties, rfl⟩ | rfl
    · exact not_isPresent_makeFile inMade (meets.creates rfl isFree other missed)
    · exact inMade
    · exact inMade
  · exact fun other size holds => (forgets other size holds).1
  · intro other size holds isSize
    have inMade := sizeAt_ensured isMade isSize
    obtain ⟨holds, kept⟩ := forgets other size holds
    rw [isFiles]
    rcases newFileStream_cases isOpened with
      ⟨isFree, rfl⟩ | ⟨id, isFile, empties, rfl⟩ | rfl
    · exact sizeAt_makeFile isFree inMade
    · exact sizeAt_resize inMade (meets.empties rfl id isFile empties other size holds kept)
    · exact inMade

theorem CachesRight.openFile {key : List Char} (right : CachesRight mapping state)
    (meets : ∀ made, state.ensureOpenParentDirectoryExists mapping guestPath flags = some made →
        OpenMeets mapping state guestPath key flags made (newFileStream mapping made key
            (resolveOpenMode flags (resolveOpenAccess flags))
            (resolveOpenAccess flags) refusal).isOk) :
    CachesRight mapping (state.openFileAt mapping guestPath key flags refusal).2 := by
  unfold State.openFileAt
  cases isMade : state.ensureOpenParentDirectoryExists mapping guestPath flags with
  | none => exact right
  | some made =>
    replace meets := meets made isMade
    cases isOpened : newFileStream mapping made key
        (resolveOpenMode flags (resolveOpenAccess flags))
        (resolveOpenAccess flags) refusal with
    | error exception =>
      rw [isOpened] at meets
      have failed : CachesRight mapping { state with files := made } := by
        apply right.withFiles
        · intro other missed absent
          exact not_isPresent_ensured isMade meets.parents missed absent
        · exact fun _ _ _ isSize => sizeAt_ensured isMade isSize
      simp only [isOpened]
      cases exception with
      | io => exact failed
      | unauthorizedAccess => exact failed
      | argument => exact failed
    | ok found =>
      rw [isOpened] at meets
      simp only [isOpened]
      split
      · rename_i mutating
        apply right.opened isMade isOpened meets
        · rfl
        · rw [openedMisses, if_pos mutating]
          rfl
        · intro other size holds
          obtain ⟨different, holds⟩ := ne_of_update_none holds
          exact ⟨holds, fun both => different both.2⟩
      · rename_i notMutating
        apply right.opened isMade isOpened meets
        · rfl
        · rw [openedMisses, if_neg notMutating]
          rfl
        · intro other size holds
          exact ⟨holds, fun both => notMutating both.1⟩

theorem CachesRight.openUnderscore {shouldSkipGuestMovie : Bool} (right : CachesRight mapping state)
    (meets : Meets mapping state (.openUnderscore guestPath flags shouldSkipGuestMovie refusal)) :
    CachesRight mapping (state.kernelOpenUnderscore mapping guestPath flags
      shouldSkipGuestMovie refusal).2 := by
  unfold State.kernelOpenUnderscore
  split
  · exact right
  · split <;> exact right
  · rename_i key _ isKey
    split
    · exact right
    · rename_i notSkipped
      split
      · exact right
      · rename_i notBarred
        split
        · split
          · exact right
          · split
            · exact right
            · exact ⟨right.misses, right.sizes⟩
        · rename_i noDirectory
          apply right.openFile
          apply meets key isKey
          rw [Bool.not_eq_true] at notSkipped notBarred noDirectory
          rw [State.opensFile, notSkipped, notBarred, noDirectory]
          rfl

theorem CachesRight.step {operation : Operation} (right : CachesRight mapping state)
    (meets : Meets mapping state operation) :
    CachesRight mapping (state.after mapping operation) := by
  cases operation with
  | resolve => exact right.resolve meets
  | stat => exact right.stat meets
  | aprResolve => exact right.aprResolve
  | openUnderscore => exact right.openUnderscore meets
  | write => exact right.write meets
  | ftruncate => exact right.ftruncate meets
  | truncate => exact right.truncate meets
  | mkdir => exact right.mkdir meets
  | rmdir => exact right.rmdir meets
  | unlink => exact right.unlink meets
  | rename => exact right.rename meets

theorem CachesRight.start (isStart : IsStart state) :
    CachesRight mapping state := by
  obtain ⟨noMisses, noSizes, -⟩ := isStart
  constructor
  · rw [noMisses]
    exact MissesRight.empty _ _
  · rw [noSizes]
    exact ValuesRight.empty _

/-- A stat that meets its condition is `NOT_FOUND` only for a path that does
not exist, and the size that is reported is the size of the file now. -/
theorem path_caches_current (reachable : Reachable IsStart (onlyWhen (Meets mapping) (Step mapping))
      state) :
    (∀ guestPath filled, Meets mapping state (.stat guestPath filled) →
      (state.kernelStat mapping guestPath filled).1 = .notFound →
        isPresent mapping state.files guestPath = false) ∧
      ∀ guestPath size, (state.tryGetAprFileSize mapping guestPath).1 = some size →
          ∃ place, mapping.place guestPath = some place ∧ state.files.sizeAt place = some size := by
  have right : CachesRight mapping state := by
    apply reachable.invariant
    · exact fun _ isStart => CachesRight.start isStart
    · rintro before operation _ right ⟨meets, -, rfl⟩
      exact right.step meets
  constructor
  · intro guestPath filled meets isMissing
    cases present : isPresent mapping state.files guestPath with
    | false => rfl
    | true =>
      rw [State.kernelStat] at isMissing
      split at isMissing
      · cases isMissing
      · split at isMissing
        · rename_i remembered
          obtain ⟨cacheKey, isKey, member⟩ :=
            (Option.any_eq_true _ _).mp remembered
          exact absurd present (right.misses guestPath ⟨cacheKey, isKey, of_decide_eq_true member⟩)
        · rw [present, meets.1 present] at isMissing
          cases isMissing
  · intro guestPath size isReported
    rw [State.tryGetAprFileSize] at isReported
    cases isKey : mapping.key guestPath with
    | none =>
      rw [isKey] at isReported
      cases isReported
    | some key =>
      have isPlace : mapping.place guestPath = some (placeOf mapping.host key) := by
        rw [PathMapping.place, isKey]
        rfl
      refine ⟨_, isPlace, ?_⟩
      rw [isKey] at isReported
      cases isRemembered : state.aprFileSizeCache key with
      | some remembered =>
        simp only [isRemembered] at isReported
        rw [← isReported]
        exact right.sizes key remembered isRemembered
      | none =>
        cases isSize : state.files.sizeAt (placeOf mapping.host key) with
        | none =>
          simp only [isRemembered, isSize] at isReported
          cases isReported
        | some found =>
          simp only [isRemembered, isSize] at isReported
          exact isReported

end Preservation

section Sample

def linux : Host := .literal false "/work".toList

def sampleMapping : PathMapping where
  host := linux
  roots := {
    devlogApp := "/devlog".toList
    temp0 := "/temp".toList
    download0 := "/download".toList
    hostapp := "/hostapp".toList
    app0 := some "/game".toList }
  mounts := []
  writableApp0 := false

def sampleFiles : FileSystem where
  entries place :=
    if place = ⟨false, []⟩ ∨ place = ⟨false, ["game".toList]⟩ ∨
        place = ⟨false, ["temp".toList]⟩ then some .directory
    else if place = ⟨false, ["game".toList, "a".toList]⟩ then some (.file 0)
    else none
  sizes _ := 5
  nextFile := 1
  fresh := by
    intro place id holds
    split at holds
    · cases holds
    · split at holds
      · cases holds
        decide
      · cases holds

def sampleState : State where
  files := sampleFiles
  negativeStatCache := ∅
  aprFileSizeCache _ := none
  openFiles _ := none
  nextFileDescriptor := 2
  cachedDownload0Root := false

theorem sampleState_isStart : IsStart sampleState :=
  ⟨rfl, rfl, rfl, rfl, rfl⟩

/-- A path is resolved for the asset stream and stated. -/
def sampleSeen : State :=
  (sampleState.after sampleMapping (.aprResolve "/app0/a".toList)).after sampleMapping
    (.stat "/app0/a".toList true)

theorem path_caches_current_sample :
    (sampleSeen.kernelStat sampleMapping "/app0/a".toList true).1 ≠ .notFound ∧
      sampleSeen.files.sizeAt ⟨false, ["game".toList, "a".toList]⟩ = some 5 := by
  have resolved : onlyWhen (Meets sampleMapping) (Step sampleMapping) sampleState
      (.aprResolve "/app0/a".toList)
      (sampleState.after sampleMapping (.aprResolve "/app0/a".toList)) :=
    ⟨trivial, trivial, rfl⟩
  have stated : onlyWhen (Meets sampleMapping) (Step sampleMapping)
      (sampleState.after sampleMapping (.aprResolve "/app0/a".toList))
      (.stat "/app0/a".toList true) sampleSeen :=
    ⟨⟨fun _ => rfl, fun missing => absurd missing (by decide)⟩, trivial, rfl⟩
  have current :=
    path_caches_current (((Reachable.start sampleState_isStart).next resolved).next stated)
  constructor
  · intro isMissing
    have meets : Meets sampleMapping sampleSeen (.stat "/app0/a".toList true) :=
      ⟨fun _ => rfl, fun missing => absurd missing (by decide)⟩
    exact absurd (current.1 _ _ meets isMissing) (by decide)
  · obtain ⟨place, isPlace, isSize⟩ := current.2 "/app0/a".toList 5 (by decide)
    have isSame : sampleMapping.place "/app0/a".toList =
        some ⟨false, ["game".toList, "a".toList]⟩ := by
      decide
    rw [isSame] at isPlace
    rw [Option.some.inj isPlace]
    exact isSize

/-- A file whose stat cannot be written out is missing from then on, and the size
that is reported for a file is not the one that a write gives it. -/
theorem path_caches_stale : (¬∀ state, Reachable IsStart (Step sampleMapping) state → ∀ guestPath,
        (state.kernelStat sampleMapping guestPath true).1 = .notFound →
          isPresent sampleMapping state.files guestPath = false) ∧
      ¬∀ state, Reachable IsStart (Step sampleMapping) state → ∀ guestPath size,
          (state.tryGetAprFileSize sampleMapping guestPath).1 = some size →
            ∃ place, sampleMapping.place guestPath = some place ∧
              state.files.sizeAt place = some size := by
  have started : Reachable IsStart (Step sampleMapping) sampleState :=
    .start sampleState_isStart
  constructor
  · intro always
    have unfilled : Step sampleMapping sampleState (.stat "/app0/a".toList false)
        (sampleState.after sampleMapping (.stat "/app0/a".toList false)) :=
      ⟨trivial, rfl⟩
    have missing := always _ (started.next unfilled) "/app0/a".toList (by decide)
    exact absurd missing (by decide)
  · intro always
    let created := sampleState.after sampleMapping
      (.openUnderscore "/temp0/b".toList (oRdwr ||| oCreat) false none)
    let resolved := created.after sampleMapping (.aprResolve "/temp0/b".toList)
    have creates : Step sampleMapping sampleState
        (.openUnderscore "/temp0/b".toList (oRdwr ||| oCreat) false none)
        created :=
      ⟨trivial, rfl⟩
    have resolves : Step sampleMapping created (.aprResolve "/temp0/b".toList)
        resolved :=
      ⟨trivial, rfl⟩
    have writes : Step sampleMapping resolved (.write 3 0 4)
        (resolved.after sampleMapping (.write 3 0 4)) :=
      ⟨trivial, rfl⟩
    have reached := ((started.next creates).next resolves).next writes
    obtain ⟨place, isPlace, isSize⟩ :=
      always _ reached "/temp0/b".toList 0 (by decide)
    have isSame : sampleMapping.place "/temp0/b".toList =
        some ⟨false, ["temp".toList, "b".toList]⟩ := by
      decide
    rw [isSame] at isPlace
    rw [← Option.some.inj isPlace] at isSize
    exact absurd isSize (by decide)

end Sample

end SharpEmu.KernelPaths
