import SharpEmu.GuestPaths

/-!
# Containment of guest paths

A host path is inside a root when the place it leads to extends the root's place.
The normalized remainder of a guest path has no parent segment, so what is left
of the question is whether the host takes the remainder for a rooted path.
-/

namespace SharpEmu
namespace GuestPaths

open PathSegments

/-! ## Containment -/

section Containment

variable (host : Host)

/-- The second place lies at or below the first. -/
def Host.Contains (root path : Place) : Prop :=
  root.network = path.network ∧ root.components.map host.fold <+: path.components.map host.fold

instance (root path : Place) : Decidable (host.Contains root path) :=
  inferInstanceAs (Decidable (_ ∧ _))

def mountRoot (roots : BuiltInRoots) (mounts : List RegisteredMount)
    (guestPath : List Char) : Option (List Char) :=
  if guestPath.all host.isWhiteSpace then none
  else
    match registeredMount host mounts guestPath with
    | some (mount, _) => some mount.hostRoot
    | none =>
        match builtInMount host roots guestPath with
        | .under root _ => some root
        | .itself root => some root
        | .none => none

def Host.isBareDrive (path : List Char) : Bool :=
  match path with
  | [letter, ':'] => host.windows && isValidDriveChar letter
  | _ => false

/-- The drive that the first segment starts with, and the segments behind it; the first
of these is empty when the segment names the drive only. -/
def Host.driveInFront : List (List Char) → Option (Char × List (List Char))
  | (letter :: ':' :: behind) :: others =>
      if host.windows && isValidDriveChar letter then some (letter, behind :: others)
      else none
  | _ => none

/-- Where segments behind a drive lead: from the top of the drive when others follow the
drive itself, and from the drive's current directory else. -/
def Host.placeOnDrive (letter : Char) : List (List Char) → Place
  | [] :: next :: others => ⟨false, [letter, ':'] :: next :: others⟩
  | behind =>
      (onDrive letter (host.segments (host.currentDirectory letter) ++
        behind.filter (· ≠ []))).place

def Host.placeUnder (root : List Char) (parts : List (List Char)) : Place :=
  match host.driveInFront parts with
  | some (letter, behind) => host.placeOnDrive letter behind
  | none =>
      if host.isBareDrive root ∧ parts ≠ [] then ⟨false, root :: parts⟩
      else ⟨(host.place root).network, (host.place root).components ++ parts⟩

def builtInPlace (roots : BuiltInRoots) (guestPath : List Char) : Place :=
  match builtInMount host roots guestPath with
  | .under root relativePath => host.placeUnder root (mountSegments relativePath)
  | .itself root => host.place root
  | .none => host.place guestPath

/-- Segments stay under a host root: a drive in front of them leads there too, and a root
that is a bare drive names the same place with a separator behind it. -/
def StaysUnder (root : List Char) (parts : List (List Char)) : Prop :=
  match host.driveInFront parts with
  | some (letter, behind) =>
      host.Contains (host.place root) (host.placeOnDrive letter behind)
  | none =>
      host.isBareDrive root = true → parts ≠ [] →
        host.Contains (host.place root) ⟨false, root :: parts⟩

end Containment

/-! ## Separators and segments -/

section Separators

variable {host : Host}

theorem isDirectorySeparator_directorySeparatorChar :
    host.isDirectorySeparator host.directorySeparatorChar = true := by
  unfold Host.isDirectorySeparator Host.directorySeparatorChar
  cases host.windows <;> rfl

theorem isDirectorySeparator_slash : host.isDirectorySeparator '/' = true :=
  rfl

theorem isDirectorySeparator_backslash (windows : host.windows = true) :
    host.isDirectorySeparator '\\' = true := by
  simp [Host.isDirectorySeparator, windows]

theorem isDirectorySeparator_upper (letter : Char) : host.isDirectorySeparator (host.upper letter) =
      host.isDirectorySeparator letter := by
  unfold Host.isDirectorySeparator
  rw [host.upper_slash, host.upper_backslash]

theorem isDirectorySeparator_colon : host.isDirectorySeparator ':' = false := by
  simp [Host.isDirectorySeparator]

theorem isDirectorySeparator_of_valid {letter : Char} (valid : isValidDriveChar letter = true) :
    host.isDirectorySeparator letter = false := by
  by_contra separates
  simp only [Host.isDirectorySeparator, Bool.not_eq_false, Bool.or_eq_true,
    beq_iff_eq, Bool.and_eq_true] at separates
  rcases separates with rfl | ⟨_, rfl⟩ <;> revert valid <;> decide

theorem segments_fold (path : List Char) :
    host.segments (host.fold path) = (host.segments path).map host.fold := by
  unfold Host.fold
  split
  · exact segments_map isDirectorySeparator_upper path
  · simp

theorem segments_append_separator (front : List Char) {separator : Char}
    (separates : host.isDirectorySeparator separator = true) :
    host.segments (front ++ [separator]) = host.segments front := by
  unfold Host.segments
  rw [segments_append_cons front [] separates]
  simp

def Host.IsName (host : Host) (part : List Char) : Prop :=
  IsSegment host.isDirectorySeparator part ∧ part ≠ ['.'] ∧ part ≠ ['.', '.']

theorem isName_of_mem_mountSegments {relativePath part : List Char}
    (member : part ∈ mountSegments relativePath) : host.IsName part := by
  revert part
  apply resolve_forall host.IsName
  · simp
  · intro part member notCurrent notParent
    have isSegment := isSegment_of_mem member
    refine ⟨⟨isSegment.1, ?_⟩, notCurrent, notParent⟩
    intro letter letterMem
    have neither := isSegment.2 letter letterMem
    simp only [Bool.or_eq_false_iff] at neither
    simp [Host.isDirectorySeparator, neither]

theorem segments_normalizeMountRelativePath (relativePath : List Char) :
    host.segments (normalizeMountRelativePath host relativePath) =
      mountSegments relativePath :=
  segments_intercalate isDirectorySeparator_directorySeparatorChar
    fun _ member => (isName_of_mem_mountSegments member).1

end Separators

/-! ## Remainders behind a root -/

section Remainders

variable {host : Host}

theorem hasDrive_cons_cons (first second : Char) (rest : List Char) :
    host.hasDrive (first :: second :: rest) =
      (second == ':' && (host.windows && isValidDriveChar first)) := by
  by_cases isColon : second = ':' <;> simp [Host.hasDrive, isColon]

theorem hasDrive_of_not_windows (windows : host.windows = false)
    (path : List Char) : host.hasDrive path = false := by
  unfold Host.hasDrive
  split <;> simp [windows]

variable {separator : Char}

theorem ne_colon_of_separates (separates : host.isDirectorySeparator separator = true) :
    (separator == ':') = false := by
  by_contra isColon
  simp only [Bool.not_eq_false, beq_iff_eq] at isColon
  rw [isColon, isDirectorySeparator_colon] at separates
  cases separates

theorem segments_separator_cons (separates : host.isDirectorySeparator separator = true)
    (front text : List Char) :
    host.segments (front ++ separator :: text) =
      host.segments (front ++ [separator]) ++ host.segments text := by
  unfold Host.segments
  rw [segments_append_cons front text separates, segments_append_cons front [] separates]
  simp

variable {text : List Char}

theorem origin_append (separates : host.isDirectorySeparator separator = true) (front : List Char)
    (unrooted : host.isPathRooted text = false) (nonempty : text ≠ []) :
    host.origin (front ++ separator :: text) = { host.origin (front ++ [separator]) with
        parts := (host.origin (front ++ [separator])).parts ++ host.segments text } := by
  obtain ⟨head, tail, rfl⟩ := List.exists_cons_of_ne_nil nonempty
  have headPlain : host.isDirectorySeparator head = false := by
    simp only [Host.isPathRooted, List.head?_cons, Option.any_some,
      Bool.or_eq_false_iff] at unrooted
    exact unrooted.1
  have behind := segments_separator_cons separates
  unfold Host.origin
  by_cases windows : host.windows
  · simp only [windows, if_true]
    match front with
    | [] =>
      have single := behind [] (head :: tail)
      simp only [List.nil_append] at single ⊢
      simp [Host.isPathRooted, separates, headPlain, onDrive, single]
    | [first] =>
      have double := behind [first] (head :: tail)
      have onlySegments := segments_append_cons [] (head :: tail) separates
      simp only [List.singleton_append] at double ⊢
      by_cases firstSeparates : host.isDirectorySeparator first
      · simp [Host.isPathRooted, firstSeparates, separates, Host.segments]
      · simp [Host.isPathRooted, firstSeparates, hasDrive_cons_cons,
          ne_colon_of_separates separates, onDrive, double]
    | first :: second :: more =>
      have whole := behind (first :: second :: more) (head :: tail)
      have rest := behind more (head :: tail)
      simp only [List.cons_append] at whole ⊢
      simp only [Host.isPathRooted, hasDrive_cons_cons, List.head?_cons, Option.any_some]
      have sameHead : (more ++ separator :: head :: tail).head? = (more ++ [separator]).head? := by
        cases more <;> rfl
      rw [sameHead, rest, whole]
      split
      · split
        · split <;> simp [onDrive]
        · split <;> simp [onDrive]
      · simp [onDrive]
  · simp only [windows, if_false, Bool.false_eq_true]
    rw [behind front (head :: tail)]
    cases front with
    | nil => simp [Host.isPathRooted, separates]
    | cons first more =>
      simp only [Host.isPathRooted,
        hasDrive_of_not_windows (by simpa using windows), List.cons_append,
        List.head?_cons, Option.any_some, Bool.or_false]
      split <;> simp

variable {front : List Char}

theorem origin_append_separator (nonempty : front ≠ [])
    (noneAtEnd : front.getLast?.any host.isDirectorySeparator = false)
    (notBare : host.isBareDrive front = false)
    (separates : host.isDirectorySeparator separator = true) :
    host.origin (front ++ [separator]) = host.origin front := by
  have sameSegments := segments_append_separator front separates
  unfold Host.origin
  by_cases windows : host.windows
  · simp only [windows, if_true]
    match front with
    | [first] =>
      have firstPlain : host.isDirectorySeparator first = false := by
        simpa using noneAtEnd
      simp only [List.singleton_append] at sameSegments ⊢
      have noDrive : host.hasDrive [first] = false := rfl
      simp [Host.isPathRooted, firstPlain, hasDrive_cons_cons,
        ne_colon_of_separates separates, sameSegments, noDrive]
    | [first, second] =>
      have secondPlain : host.isDirectorySeparator second = false := by
        simpa using noneAtEnd
      have noDrive : (second == ':' && (host.windows && isValidDriveChar first)) = false := by
        by_contra isDrive
        simp only [Bool.not_eq_false, Bool.and_eq_true, beq_iff_eq] at isDrive
        simp [Host.isBareDrive, isDrive] at notBare
      simp only [List.cons_append, List.nil_append] at sameSegments ⊢
      simp only [Host.isPathRooted, hasDrive_cons_cons, noDrive, Bool.or_false,
        List.head?_cons, Option.any_some, secondPlain, Bool.false_eq_true,
        if_false, sameSegments]
      split <;> simp
    | first :: second :: third :: more =>
      have restSegments :=
        segments_append_separator (third :: more) separates
      simp only [List.cons_append] at sameSegments restSegments ⊢
      simp only [Host.isPathRooted, hasDrive_cons_cons, List.head?_cons,
        Option.any_some, sameSegments, restSegments]
      rfl
  · simp only [windows, if_false, Bool.false_eq_true]
    obtain ⟨first, more, rfl⟩ := List.exists_cons_of_ne_nil nonempty
    simp only [Host.isPathRooted,
      hasDrive_of_not_windows (by simpa using windows), List.cons_append,
      List.head?_cons, Option.any_some, Bool.or_false] at sameSegments ⊢
    rw [sameSegments]

variable {names : List (List Char)}

theorem place_with_names (origin : Origin) (areNames : ∀ name ∈ names, host.IsName name) :
    { origin with parts := origin.parts ++ names : Origin }.place =
      ⟨origin.network, origin.place.components ++ names⟩ := by
  simp only [Origin.place, resolve_append]
  rw [resolve_plain fun name member => (areNames name member).2]

theorem origin_of_unrooted (unrooted : host.isPathRooted text = false) :
    host.origin text = { host.origin [] with
        parts := (host.origin []).parts ++ host.segments text } := by
  have emptyUnrooted : host.isPathRooted [] = false := rfl
  have noSegments : host.segments [] = [] := rfl
  unfold Host.origin
  simp only [unrooted, emptyUnrooted, noSegments, List.append_nil]
  split <;> simp [onDrive]

theorem isBareDrive_append (separates : host.isDirectorySeparator separator = true) :
    host.isBareDrive (front ++ [separator]) = false := by
  have notColon := ne_colon_of_separates separates
  match front with
  | [] => rfl
  | [first] =>
    unfold Host.isBareDrive
    split
    · rename_i isDrive
      simp only [List.singleton_append, List.cons.injEq] at isDrive
      simp [isDrive] at notColon
    · rfl
  | first :: second :: more =>
    unfold Host.isBareDrive
    split
    · rename_i isDrive
      simp at isDrive
    · rfl

theorem place_bareDrive {root : List Char} (bare : host.isBareDrive root = true)
    (isText : host.segments text = names)
    (areNames : ∀ name ∈ names, host.IsName name) :
    host.place (root ++ host.directorySeparatorChar :: text) = ⟨false, root :: names⟩ := by
  unfold Host.isBareDrive at bare
  split at bare
  · rename_i letter
    simp only [Bool.and_eq_true] at bare
    have separates : host.isDirectorySeparator host.directorySeparatorChar = true :=
      isDirectorySeparator_directorySeparatorChar
    have letterPlain : host.isDirectorySeparator letter = false :=
      isDirectorySeparator_of_valid bare.2
    have behind := segments_append_cons [] text separates
    simp only [List.nil_append] at behind
    have names_ : host.segments (host.directorySeparatorChar :: text) = names := by
      rw [← isText]
      simpa [Host.segments] using behind
    simp only [Host.place, Host.origin, Host.isPathRooted, List.cons_append,
      List.nil_append, hasDrive_cons_cons, bare, List.head?_cons,
      Option.any_some, letterPlain, separates, names_, onDrive, Origin.place,
      beq_self_eq_true, Bool.and_self, Bool.false_or, if_true, if_false,
      Bool.false_eq_true]
    rw [resolve_plain fun name member => (areNames name member).2]
    rfl
  · cases bare

variable {letter : Char} {behind : List Char}

theorem isSegment_tail (isSegment : IsSegment host.isDirectorySeparator (letter :: ':' :: behind)) :
    ∀ other ∈ behind, host.isDirectorySeparator other = false :=
  fun _ member =>
    isSegment.2 _ (List.mem_cons_of_mem _ (List.mem_cons_of_mem _ member))

theorem intercalate_driveInFront (letter : Char) (behind : List Char)
    (others : List (List Char)) (separator : Char) :
    [separator].intercalate ((letter :: ':' :: behind) :: others) =
      letter :: ':' :: [separator].intercalate (behind :: others) := by
  cases others with
  | nil => simp
  | cons next more => simp [List.intercalate_cons_cons]

theorem segments_behind {others : List (List Char)}
    (plain : ∀ letter ∈ behind, host.isDirectorySeparator letter = false)
    (areNames : ∀ name ∈ others, host.IsName name) :
    host.segments ([host.directorySeparatorChar].intercalate (behind :: others)) =
      (behind :: others).filter (· ≠ []) := by
  have othersStay : others.filter (· ≠ []) = others :=
    List.filter_eq_self.mpr fun name member => by simpa using (areNames name member).1.1
  by_cases empty : behind = []
  · subst empty
    rw [List.filter_cons_of_neg (by simp), othersStay]
    cases others with
    | nil => rfl
    | cons next more =>
      rw [List.intercalate_cons_cons, List.nil_append, List.singleton_append]
      unfold Host.segments
      rw [segments_cons _ isDirectorySeparator_directorySeparatorChar]
      exact segments_intercalate isDirectorySeparator_directorySeparatorChar
        fun name member => (areNames name member).1
  · rw [List.filter_cons_of_pos (by simpa using empty), othersStay]
    apply segments_intercalate isDirectorySeparator_directorySeparatorChar
    intro name member
    rcases List.mem_cons.mp member with rfl | inOthers
    · exact ⟨empty, plain⟩
    · exact (areNames name inOthers).1

theorem head?_intercalate_any {behind : List Char} {others : List (List Char)}
    (plain : ∀ letter ∈ behind, host.isDirectorySeparator letter = false) :
    ([host.directorySeparatorChar].intercalate (behind :: others)).head?.any
        host.isDirectorySeparator = decide (behind = [] ∧ others ≠ []) := by
  cases behind with
  | nil =>
    cases others with
    | nil => rfl
    | cons next more =>
      simp [List.intercalate_cons_cons, isDirectorySeparator_directorySeparatorChar]
  | cons first rest =>
    have firstPlain := plain first List.mem_cons_self
    cases others <;> simp [List.intercalate_cons_cons, firstPlain]

variable {parts : List (List Char)}

/-- Segments with a drive in front are a rooted path, and lead where the drive says. -/
theorem place_of_driveInFront {behind : List (List Char)}
    (areNames : ∀ name ∈ parts, host.IsName name)
    (drive : host.driveInFront parts = some (letter, behind)) :
    host.isPathRooted ([host.directorySeparatorChar].intercalate parts) = true ∧
      host.place ([host.directorySeparatorChar].intercalate parts) =
        host.placeOnDrive letter behind := by
  unfold Host.driveInFront at drive
  split at drive
  · rename_i first rest others
    split at drive
    · rename_i onWindows
      obtain ⟨rfl, rfl⟩ := Prod.mk.inj (Option.some.inj drive)
      rw [Bool.and_eq_true] at onWindows
      have plain := isSegment_tail (areNames _ List.mem_cons_self).1
      have othersNames := (List.forall_mem_cons.mp areNames).2
      have firstPlain := @isDirectorySeparator_of_valid host _ onWindows.2
      have read := segments_behind plain othersNames
      have isHead := @head?_intercalate_any host _ others plain
      rw [intercalate_driveInFront]
      generalize [host.directorySeparatorChar].intercalate (rest :: others) = text at read isHead
      constructor
      · simp [Host.isPathRooted, hasDrive_cons_cons, onWindows]
      · simp only [Host.place, Host.origin, onWindows, Host.isPathRooted,
          hasDrive_cons_cons, firstPlain, List.head?_cons, Option.any_some,
          beq_self_eq_true, Bool.and_self, Bool.or_true, if_true, if_false,
          Bool.false_eq_true, isHead, decide_eq_true_eq, read]
        by_cases top : rest = [] ∧ others ≠ []
        · obtain ⟨rfl, someOthers⟩ := top
          obtain ⟨next, more, rfl⟩ := List.exists_cons_of_ne_nil someOthers
          rw [if_pos ⟨rfl, someOthers⟩, List.filter_cons_of_neg (by simp),
            List.filter_eq_self.mpr fun name member => by
              simpa using (othersNames name member).1.1,
            Origin.place, onDrive,
            resolve_plain fun name member => (othersNames name member).2]
          rfl
        · rw [if_neg top, Host.placeOnDrive]
          rintro next more same
          obtain ⟨rfl, rfl⟩ := List.cons.inj same
          exact top ⟨rfl, List.cons_ne_nil _ _⟩
    · cases drive
  · cases drive

theorem unrooted_of_driveInFront (areNames : ∀ name ∈ parts, host.IsName name)
    (noDrive : host.driveInFront parts = none) :
    host.isPathRooted ([host.directorySeparatorChar].intercalate parts) = false := by
  cases parts with
  | nil => rfl
  | cons part others =>
    obtain ⟨nonempty, plain⟩ := (areNames _ List.mem_cons_self).1
    obtain ⟨first, rest, rfl⟩ := List.exists_cons_of_ne_nil nonempty
    have firstPlain := plain first List.mem_cons_self
    have separatorNotColon := ne_colon_of_separates
      (@isDirectorySeparator_directorySeparatorChar host)
    cases rest with
    | nil =>
      cases others with
      | nil => simp [Host.isPathRooted, firstPlain, Host.hasDrive]
      | cons next more =>
        simp [Host.isPathRooted, firstPlain, List.intercalate_cons_cons,
          hasDrive_cons_cons, separatorNotColon]
    | cons second more =>
      have letters : (second == ':' && (host.windows && isValidDriveChar first)) =
          false := by
        by_contra isDrive
        simp only [Bool.not_eq_false, Bool.and_eq_true, beq_iff_eq] at isDrive
        obtain ⟨rfl, onWindows⟩ := isDrive
        simp [Host.driveInFront, onWindows] at noDrive
      cases others with
      | nil => simp [Host.isPathRooted, firstPlain, hasDrive_cons_cons, letters]
      | cons next others =>
        simp [Host.isPathRooted, firstPlain, List.intercalate_cons_cons,
          hasDrive_cons_cons, letters]

theorem combine_eq (root relativePath : List Char) :
    host.combine root (normalizeMountRelativePath host relativePath) =
      if (host.driveInFront (mountSegments relativePath)).isSome ∨ root = [] then
        normalizeMountRelativePath host relativePath
      else if mountSegments relativePath = [] then root
      else if root.getLast?.any host.isDirectorySeparator then
        root ++ normalizeMountRelativePath host relativePath
      else root ++ host.directorySeparatorChar ::
        normalizeMountRelativePath host relativePath := by
  have areNames : ∀ name ∈ mountSegments relativePath, host.IsName name :=
    fun _ => isName_of_mem_mountSegments
  have onlyEmpty : normalizeMountRelativePath host relativePath = [] ↔
      mountSegments relativePath = [] := by
    constructor
    · intro noText
      rw [← @segments_normalizeMountRelativePath host, noText]
      rfl
    · intro noParts
      simp [normalizeMountRelativePath, noParts]
  cases drive : host.driveInFront (mountSegments relativePath) with
  | some found =>
    obtain ⟨letter, behind⟩ := found
    have rooted : host.isPathRooted (normalizeMountRelativePath host relativePath) = true :=
      (place_of_driveInFront areNames drive).1
    rw [if_pos (.inl rfl), Host.combine, if_pos rooted]
    split
    · rfl
    · split
      · rename_i noText
        rw [noText] at rooted
        cases rooted
      · rfl
  | none =>
    have unrooted : host.isPathRooted (normalizeMountRelativePath host relativePath) =
        false :=
      unrooted_of_driveInFront areNames drive
    have notInFront : (normalizeMountRelativePath host relativePath).head?.any
        host.isDirectorySeparator = false := by
      simp only [Host.isPathRooted, Bool.or_eq_false_iff] at unrooted
      exact unrooted.1
    simp only [Host.combine, unrooted, notInFront, onlyEmpty, Option.isSome_none,
      Bool.false_eq_true, false_or, if_false, Bool.or_false]

theorem place_combine (root relativePath : List Char) :
    host.place (host.combine root (normalizeMountRelativePath host relativePath)) =
      host.placeUnder root (mountSegments relativePath) := by
  have readBack : host.segments (normalizeMountRelativePath host relativePath) =
        mountSegments relativePath :=
    segments_normalizeMountRelativePath relativePath
  have areNames : ∀ name ∈ mountSegments relativePath, host.IsName name :=
    fun _ => isName_of_mem_mountSegments
  have separates : host.isDirectorySeparator host.directorySeparatorChar = true :=
    isDirectorySeparator_directorySeparatorChar
  rw [combine_eq, Host.placeUnder]
  cases drive : host.driveInFront (mountSegments relativePath) with
  | some found =>
    rw [if_pos (.inl rfl)]
    exact (place_of_driveInFront areNames drive).2
  | none =>
    have unrooted : host.isPathRooted (normalizeMountRelativePath host relativePath) =
        false :=
      unrooted_of_driveInFront areNames drive
    simp only [Option.isSome_none, Bool.false_eq_true, false_or]
    by_cases noRoot : root = []
    · rw [if_pos noRoot, noRoot, Host.place, origin_of_unrooted unrooted, readBack,
        place_with_names _ areNames]
      rfl
    by_cases noParts : mountSegments relativePath = []
    · rw [if_neg noRoot, if_pos noParts, noParts]
      simp
    have nonempty : normalizeMountRelativePath host relativePath ≠ [] := by
      intro noText
      rw [noText] at readBack
      exact noParts readBack.symm
    rw [if_neg noRoot, if_neg noParts]
    by_cases closed : root.getLast?.any host.isDirectorySeparator
    · rw [if_pos closed]
      obtain ⟨front, last, rfl⟩ : ∃ front last, root = front ++ [last] :=
        ⟨_, _, (List.dropLast_append_getLast noRoot).symm⟩
      have lastSeparates : host.isDirectorySeparator last = true := by
        simpa using closed
      rw [List.append_assoc, List.singleton_append, Host.place,
        origin_append lastSeparates front unrooted nonempty, readBack,
        place_with_names _ areNames,
        if_neg (by simp [isBareDrive_append lastSeparates])]
      rfl
    · rw [if_neg closed]
      by_cases bare : host.isBareDrive root
      · rw [if_pos ⟨bare, noParts⟩, place_bareDrive bare readBack areNames]
      · rw [if_neg (by simp [bare]), Host.place,
          origin_append separates root unrooted nonempty, readBack,
          place_with_names _ areNames,
          origin_append_separator noRoot (by simpa using closed) (by simpa using bare) separates]
        rfl

end Remainders

/-! ## Full paths -/

section FullPaths

variable {host : Host}

/-- The places that the host can write down: names only, and a drive in front of
a local place on Windows. -/
structure Host.Canonical (host : Host) (place : Place) : Prop where
  names : ∀ part ∈ place.components, host.IsName part
  onWindows : place.network = true → host.windows = true
  drive : host.windows = true → place.network = false →
    ∃ letter rest, isValidDriveChar letter = true ∧
      place.components = [letter, ':'] :: rest

variable {letter : Char}

theorem isName_drive (valid : isValidDriveChar letter = true) : host.IsName [letter, ':'] := by
  refine ⟨⟨by simp, ?_⟩, by simp, by simp⟩
  intro other member
  rcases List.mem_cons.mp member with rfl | isColon
  · exact isDirectorySeparator_of_valid valid
  · rw [List.mem_singleton.mp isColon]
    exact isDirectorySeparator_colon

theorem origin_shape (host : Host) (path : List Char) : (∀ part ∈ (host.origin path).parts,
      IsSegment host.isDirectorySeparator part) ∧
    ((host.windows = true ∧ (host.origin path).network = true ∧ (host.origin path).base = []) ∨
      (host.windows = true ∧ (host.origin path).network = false ∧ (host.origin path).floor = 1 ∧
        ∃ letter, isValidDriveChar letter = true ∧ (host.origin path).base = [[letter, ':']]) ∨
      (host.windows = false ∧ (host.origin path).network = false ∧
        (host.origin path).base = [])) := by
  have areSegments (text : List Char) : ∀ part ∈ host.segments text,
      IsSegment host.isDirectorySeparator part := fun _ => isSegment_of_mem
  have areBoth (front rest : List Char) : ∀ part ∈ host.segments front ++ host.segments rest,
        IsSegment host.isDirectorySeparator part := by
    intro part member
    rcases List.mem_append.mp member with inFront | inRest
    · exact areSegments front part inFront
    · exact areSegments rest part inRest
  have validCurrent := host.currentDrive_valid
  unfold Host.origin
  by_cases windows : host.windows
  · simp only [windows, if_true]
    split
    · rename_i rooted
      split
      · rename_i first second rest
        split
        · split
          · simpa using areSegments rest
          · simpa [onDrive, validCurrent] using areSegments _
        · rename_i firstPlain
          have valid : isValidDriveChar first = true := by
            simp only [Host.isPathRooted, hasDrive_cons_cons, List.head?_cons,
              Option.any_some, firstPlain, Bool.false_or, Bool.and_eq_true]
              at rooted
            exact rooted.2.2
          split
          · simpa [onDrive, valid] using areSegments rest
          · simpa [onDrive, valid] using areBoth _ _
      · simpa [onDrive, validCurrent] using areSegments _
    · simpa [onDrive, validCurrent] using areBoth _ _
  · simp only [windows, if_false, Bool.false_eq_true]
    split
    · simpa using areSegments path
    · simpa using areBoth _ _

theorem canonical_place (path : List Char) : host.Canonical (host.place path) := by
  obtain ⟨areSegments, shape⟩ := origin_shape host path
  have areNames (start : ∀ part ∈ (host.origin path).base, host.IsName part) :
      ∀ part ∈ (host.place path).components, host.IsName part :=
    resolve_forall host.IsName start fun part member notCurrent notParent =>
      ⟨areSegments part member, notCurrent, notParent⟩
  rcases shape with ⟨windows, network, base⟩ |
    ⟨windows, network, floor, letter, valid, base⟩ | ⟨notWindows, network, base⟩
  · refine ⟨areNames (by simp [base]), fun _ => windows, fun _ isLocal => ?_⟩
    change (host.origin path).network = false at isLocal
    rw [network] at isLocal
    cases isLocal
  · refine ⟨areNames ?_, fun _ => windows, fun _ _ => ?_⟩
    · intro part member
      rw [base, List.mem_singleton] at member
      rw [member]
      exact isName_drive valid
    · have keepsDrive : [[letter, ':']] <+: (host.place path).components := by
        apply floor_prefix_resolve
        · rw [floor]
          rfl
        · rw [base]
      obtain ⟨rest, isRest⟩ := keepsDrive
      exact ⟨letter, rest, valid, isRest.symm⟩
  · refine ⟨areNames (by simp [base]), ?_, ?_⟩
    · intro isNetwork
      change (host.origin path).network = true at isNetwork
      rw [network] at isNetwork
      cases isNetwork
    · intro windows
      rw [notWindows] at windows
      cases windows

theorem text_drive (windows : host.windows = true) (rest : List (List Char)) :
    host.text ⟨false, [letter, ':'] :: rest⟩ =
      letter :: ':' :: '\\' :: [host.directorySeparatorChar].intercalate rest := by
  have separator : host.directorySeparatorChar = '\\' := by
    simp [Host.directorySeparatorChar, windows]
  cases rest with
  | nil => simp [Host.text, Host.isVolumeRoot, windows]
  | cons next others =>
    simp [Host.text, Host.isVolumeRoot, windows, separator, List.intercalate_cons_cons]

/-- A separator that may stand at the end of a full path. -/
def Host.IsEnd (host : Host) (ending : List Char) : Prop :=
  ending = [] ∨ ending = [host.directorySeparatorChar]

variable {ending : List Char}

theorem segments_append_end (front : List Char) (isEnd : host.IsEnd ending) :
    host.segments (front ++ ending) = host.segments front := by
  rcases isEnd with rfl | rfl
  · rw [List.append_nil]
  · exact segments_append_separator front isDirectorySeparator_directorySeparatorChar

theorem segments_intercalate_names {names : List (List Char)}
    (areNames : ∀ name ∈ names, host.IsName name) :
    host.segments ([host.directorySeparatorChar].intercalate names) = names :=
  segments_intercalate isDirectorySeparator_directorySeparatorChar
    fun name member => (areNames name member).1

theorem segments_cons_separator {separator : Char}
    (separates : host.isDirectorySeparator separator = true)
    (rest : List Char) :
    host.segments (separator :: rest) = host.segments rest :=
  segments_cons rest separates

variable {place : Place}

theorem place_text (canonical : host.Canonical place) (isEnd : host.IsEnd ending) :
    host.place (host.text place ++ ending) = place ∧
      host.segments (host.text place ++ ending) = place.components ∧
        place.network = (host.windows &&
          (host.text place).head?.any host.isDirectorySeparator) := by
  obtain ⟨names, onWindows, drive⟩ := canonical
  obtain ⟨network, components⟩ := place
  simp only at names onWindows drive
  have plain : ∀ name ∈ components, name ≠ ['.'] ∧ name ≠ ['.', '.'] :=
    fun name member => (names name member).2
  cases network with
  | true =>
    have windows := onWindows rfl
    have separates := isDirectorySeparator_backslash windows
    have isText : host.text ⟨true, components⟩ =
        '\\' :: '\\' :: [host.directorySeparatorChar].intercalate components := by
      simp [Host.text, windows]
    have read : host.segments ([host.directorySeparatorChar].intercalate components ++ ending) =
          components := by
      rw [segments_append_end _ isEnd, segments_intercalate_names names]
    rw [isText, List.cons_append, List.cons_append]
    refine ⟨?_, ?_, ?_⟩
    · simp only [Host.place, Host.origin, windows, Host.isPathRooted,
        List.head?_cons, Option.any_some, separates, Bool.true_or, if_true,
        Origin.place, read]
      rw [resolve_plain plain, List.nil_append]
    · rw [segments_cons_separator separates, segments_cons_separator separates, read]
    · simp [windows, separates]
  | false =>
    by_cases windows : host.windows
    · obtain ⟨letter, rest, valid, rfl⟩ := drive windows rfl
      have separates := isDirectorySeparator_backslash windows
      have letterPlain : host.isDirectorySeparator letter = false :=
        isDirectorySeparator_of_valid valid
      have restNames := (List.forall_mem_cons.mp names).2
      have read : host.segments ('\\' ::
          ([host.directorySeparatorChar].intercalate rest ++ ending)) =
            rest := by
        rw [segments_cons_separator separates, segments_append_end _ isEnd,
          segments_intercalate_names restNames]
      have driveSegment : host.segments [letter, ':'] = [[letter, ':']] :=
        segments_of_isSegment (isName_drive valid).1
      rw [text_drive windows]
      simp only [List.cons_append]
      refine ⟨?_, ?_, ?_⟩
      · simp only [Host.place, Host.origin, windows, Host.isPathRooted,
          hasDrive_cons_cons, valid, List.head?_cons, Option.any_some,
          letterPlain, separates, beq_self_eq_true, Bool.and_self,
          Bool.or_true, if_true, if_false, Bool.false_eq_true, Origin.place,
          onDrive, read]
        rw [resolve_plain fun name member => (restNames name member).2]
        rfl
      · have split := segments_append_cons [letter, ':']
          ([host.directorySeparatorChar].intercalate rest ++ ending) separates
        change host.segments _ = host.segments _ ++ host.segments _ at split
        rw [segments_cons_separator separates] at read
        rw [driveSegment, read] at split
        exact split
      · simp [letterPlain]
    · have notWindows : host.windows = false := by simpa using windows
      have isText : host.text ⟨false, components⟩ =
          '/' :: [host.directorySeparatorChar].intercalate components := by
        simp [Host.text, notWindows]
      have read : host.segments ('/' ::
          ([host.directorySeparatorChar].intercalate components ++ ending)) =
            components := by
        rw [segments_cons_separator isDirectorySeparator_slash,
          segments_append_end _ isEnd, segments_intercalate_names names]
      rw [isText, List.cons_append]
      refine ⟨?_, read, ?_⟩
      · simp only [Host.place, Host.origin, notWindows, Host.isPathRooted,
          List.head?_cons, Option.any_some, isDirectorySeparator_slash,
          Bool.true_or, if_true, if_false, Bool.false_eq_true, Origin.place,
          read]
        rw [resolve_plain plain, List.nil_append]
      · simp [notWindows]

variable {path full : List Char}

theorem getFullPath_eq (isFull : host.getFullPath path = .ok full) :
    ∃ ending, host.IsEnd ending ∧ full = host.text (host.place path) ++ ending := by
  unfold Host.getFullPath at isFull
  split at isFull
  · cases isFull
  · simp only at isFull
    split at isFull
    · cases isFull
      exact ⟨_, .inr rfl, rfl⟩
    · cases isFull
      exact ⟨[], .inl rfl, (List.append_nil _).symm⟩

theorem isBareDrive_of_not_windows (notWindows : host.windows = false)
    (path : List Char) : host.isBareDrive path = false := by
  unfold Host.isBareDrive
  split <;> simp [notWindows]

theorem isBareDrive_of_isFull {path full : List Char} (isFull : host.getFullPath path = .ok full) :
    host.isBareDrive full = false := by
  obtain ⟨ending, _, rfl⟩ := getFullPath_eq isFull
  have canonical : host.Canonical (host.place path) := canonical_place path
  by_cases windows : host.windows
  · cases network : (host.place path).network with
    | true =>
      unfold Host.isBareDrive
      split
      · rename_i letter isDrive
        simp [Host.text, windows, network] at isDrive
      · rfl
    | false =>
      obtain ⟨letter, rest, _, components⟩ := canonical.drive windows network
      have isPlace : host.place path = ⟨false, [letter, ':'] :: rest⟩ := by
        rw [← network, ← components]
      rw [isPlace, text_drive windows]
      rfl
  · exact isBareDrive_of_not_windows (by simpa using windows) _

theorem text_ne_nil (canonical : host.Canonical place) : host.text place ≠ [] := by
  unfold Host.text
  split
  · rename_i windows
    split
    · simp
    · rename_i isLocal
      obtain ⟨letter, rest, _, components⟩ :=
        canonical.drive windows (by simpa using isLocal)
      split
      · simp
      · cases rest <;> simp [components, List.intercalate_cons_cons]
  · simp

theorem place_of_isFull (isFull : host.getFullPath path = .ok full) :
    (host.place full).components = host.segments full ∧ (host.place full).network =
        (host.windows && full.head?.any host.isDirectorySeparator) := by
  obtain ⟨ending, isEnd, rfl⟩ := getFullPath_eq isFull
  obtain ⟨leads, segments, network⟩ := place_text (canonical_place path) isEnd
  rw [leads, segments, network, List.head?_append_of_ne_nil _ (text_ne_nil (canonical_place path))]
  exact ⟨rfl, rfl⟩

/-! ## The containment check -/

theorem segments_trimEndingDirectorySeparator (path : List Char) :
    host.segments (host.trimEndingDirectorySeparator path) = host.segments path := by
  unfold Host.trimEndingDirectorySeparator
  split
  · rename_i trims
    simp only [Bool.and_eq_true] at trims
    have nonempty : path ≠ [] := by
      rintro rfl
      cases trims.1
    have lastSeparates : host.isDirectorySeparator (path.getLast nonempty) = true := by
      simpa [List.getLast?_eq_some_getLast nonempty] using trims.1
    conv_rhs => rw [← List.dropLast_append_getLast nonempty]
    rw [segments_append_separator _ lastSeparates]
  · rfl

theorem head?_any_fold (path : List Char) : (host.fold path).head?.any host.isDirectorySeparator =
      path.head?.any host.isDirectorySeparator := by
  unfold Host.fold
  split
  · cases path <;> simp [isDirectorySeparator_upper]
  · rfl

theorem two_le_length_of_isFull
    (windows : host.windows = true) (isFull : host.getFullPath path = .ok full) :
    2 ≤ full.length := by
  obtain ⟨ending, _, rfl⟩ := getFullPath_eq isFull
  have canonical : host.Canonical (host.place path) := canonical_place path
  have long : 2 ≤ (host.text (host.place path)).length := by
    cases network : (host.place path).network with
    | true => simp [Host.text, windows, network]
    | false =>
      obtain ⟨letter, rest, _, components⟩ := canonical.drive windows network
      have isPlace : host.place path = ⟨false, [letter, ':'] :: rest⟩ := by
        rw [← network, ← components]
      rw [isPlace, text_drive windows]
      simp
  rw [List.length_append]
  omega

/-- A trimmed full path on Windows still starts like the path. -/
theorem head?_trimEndingDirectorySeparator (long : 2 ≤ full.length) :
    (host.trimEndingDirectorySeparator full).head? = full.head? := by
  unfold Host.trimEndingDirectorySeparator
  split
  · match full with
    | first :: second :: rest => rfl
  · rfl

theorem fold_append (front rest : List Char) :
    host.fold (front ++ rest) = host.fold front ++ host.fold rest := by
  unfold Host.fold
  split <;> simp

theorem exists_fold_separator (host : Host) : ∃ separator,
    host.fold [host.directorySeparatorChar] = [separator] ∧
      host.isDirectorySeparator separator = true := by
  unfold Host.fold
  split
  · exact ⟨_, rfl, by
      rw [isDirectorySeparator_upper]
      exact isDirectorySeparator_directorySeparatorChar⟩
  · exact ⟨_, rfl, isDirectorySeparator_directorySeparatorChar⟩

theorem contains_of_isContained {rootPath candidatePath root candidate : List Char}
    (rootFull : host.getFullPath rootPath = .ok root)
    (candidateFull : host.getFullPath candidatePath = .ok candidate)
    (isContained : host.isContained candidate root = true) :
    host.Contains (host.place root) (host.place candidate) := by
  obtain ⟨rootComponents, rootNetwork⟩ := place_of_isFull rootFull
  obtain ⟨candidateComponents, candidateNetwork⟩ := place_of_isFull candidateFull
  unfold Host.Contains
  rw [rootComponents, rootNetwork, candidateComponents, candidateNetwork,
    ← segments_fold, ← segments_fold]
  unfold Host.isContained at isContained
  simp only [Bool.or_eq_true, beq_iff_eq, List.isPrefixOf_iff_prefix] at isContained
  rcases isContained with same | startsWith
  · rw [same, ← head?_any_fold candidate, same, head?_any_fold]
    exact ⟨rfl, List.prefix_rfl⟩
  · obtain ⟨separator, isSeparator, separates⟩ :=
      exists_fold_separator host
    rw [fold_append, isSeparator] at startsWith
    constructor
    · by_cases windows : host.windows
      · have long := two_le_length_of_isFull windows rootFull
        obtain ⟨first, trimHead⟩ : ∃ first,
            (host.trimEndingDirectorySeparator root).head? = some first := by
          rw [head?_trimEndingDirectorySeparator long]
          cases root with
          | nil => simp at long
          | cons first rest => exact ⟨first, rfl⟩
        obtain ⟨rest, isCandidate⟩ := startsWith
        have sameHead : (host.fold candidate).head? =
            (host.fold (host.trimEndingDirectorySeparator root)).head? := by
          have nonempty : host.fold (host.trimEndingDirectorySeparator root) ≠ [] := by
            intro empty
            unfold Host.fold at empty
            split at empty <;> simp_all
          rw [← isCandidate, List.append_assoc, List.head?_append_of_ne_nil _ nonempty]
        rw [← head?_any_fold candidate, sameHead, head?_any_fold,
          head?_trimEndingDirectorySeparator long]
      · simp [windows]
    · rw [segments_fold root, ← segments_trimEndingDirectorySeparator root, ← segments_fold]
      exact segments_prefix separates startsWith

end FullPaths

/-! ## Guest paths -/

section Resolution

variable {host : Host}

theorem contains_self (place : Place) : host.Contains place place :=
  ⟨rfl, List.prefix_rfl⟩

theorem contains_placeUnder_iff (root : List Char) (parts : List (List Char)) :
    host.Contains (host.place root) (host.placeUnder root parts) ↔
      StaysUnder host root parts := by
  unfold Host.placeUnder StaysUnder
  split
  · rfl
  · split
    · rename_i behindDrive
      simp [behindDrive]
    · rename_i notBehindDrive
      constructor
      · intro _ bare someParts
        exact absurd ⟨bare, someParts⟩ notBehindDrive
      · intro _
        refine ⟨rfl, ?_⟩
        rw [List.map_append]
        exact List.prefix_append _ _

theorem place_hostPath (host : Host) (roots : BuiltInRoots) (guestPath : List Char) :
    host.place ((builtInMount host roots guestPath).hostPath host guestPath) =
      builtInPlace host roots guestPath := by
  unfold builtInPlace
  cases builtInMount host roots guestPath with
  | under root relativePath => exact place_combine root relativePath
  | itself root => rfl
  | none => rfl

variable {mounts : List RegisteredMount} {guestPath : List Char} {mount : RegisteredMount}

theorem mem_of_matchedMount (matched : matchedMount host mounts guestPath = some mount) :
    mount ∈ mounts := by
  have walk (tail : List RegisteredMount) (start : Option RegisteredMount)
      (result : RegisteredMount)
      (isResult : tail.foldl (fun matched mount =>
          if mount.covers host guestPath &&
              matched.all (·.mountPoint.length < mount.mountPoint.length)
          then some mount
          else matched)
        start = some result) : start = some result ∨ result ∈ tail := by
    induction tail generalizing start with
    | nil => exact .inl isResult
    | cons head rest ih =>
      rw [List.foldl_cons] at isResult
      rcases ih _ isResult with isStart | inRest
      · split at isStart
        · cases isStart
          exact .inr (by simp)
        · exact .inl isStart
      · exact .inr (List.mem_cons_of_mem _ inRest)
  rcases walk mounts none mount matched with isNone | member
  · cases isNone
  · exact member

theorem mem_of_registeredMount {relativePath : List Char}
    (registered : registeredMount host mounts guestPath =
      some (mount, relativePath)) : mount ∈ mounts := by
  simp only [registeredMount, Option.bind_eq_bind, Option.pure_def,
    Option.bind_eq_some_iff, Option.some.injEq, Prod.mk.injEq] at registered
  obtain ⟨normalized, _, matched, isMatched, rfl, _⟩ := registered
  exact mem_of_matchedMount isMatched

theorem resolveGuestPath_eq_ok_iff {roots : BuiltInRoots} {hostPath : List Char}
    (notBlank : guestPath.all host.isWhiteSpace = false) :
    resolveGuestPath host roots mounts guestPath = .ok hostPath ↔
      tryResolveRegisteredGuestMount host mounts guestPath = .ok (some hostPath) ∨
        (tryResolveRegisteredGuestMount host mounts guestPath = .ok none ∧
          (builtInMount host roots guestPath).hostPath host guestPath = hostPath) := by
  unfold resolveGuestPath
  rw [if_neg (by simp [notBlank])]
  cases tryResolveRegisteredGuestMount host mounts guestPath with
  | error reason =>
    change Except.error reason = _ ↔ _
    simp
  | ok outcome =>
    cases outcome with
    | none =>
      change Except.ok _ = _ ↔ _
      simp
    | some mountedPath =>
      change Except.ok _ = _ ↔ _
      simp

end Resolution

end GuestPaths
end SharpEmu
