import SharpEmu.GuestPathsContainment

/-!
# Save-data directories

A save slot is the directory `<root>/<titleId>/<dirName>`, with both names
sanitized.  Sanitizing makes a name a single path component; what the component
means is up to the host, which reads `.` and `..`, and on some hosts reserved
device names, in its own way.
-/

namespace SharpEmu
namespace SaveDataStorage

open PathSegments GuestPaths

/-! ## Names and directories -/

section Model

variable (host : Host)

/-- `Path.GetInvalidFileNameChars`. -/
def invalidFileNameChars : List Char :=
  if host.windows then
    ['"', '<', '>', '|', ':', '*', '?', '\\', '/'] ++ (List.range 32).map Char.ofNat
  else [Char.ofNat 0, '/']

def trim (text : List Char) : List Char :=
  (text.dropWhile host.isWhiteSpace).rdropWhile host.isWhiteSpace

def defaultName : List Char :=
  ['d', 'e', 'f', 'a', 'u', 'l', 't']

def sanitize (value : List Char) : List Char :=
  if value = [] then defaultName
  else
    let sanitized := trim host
      (value.map fun ch => if ch ∈ invalidFileNameChars host then '_' else ch)
    if sanitized.all host.isWhiteSpace then defaultName else sanitized

def titleRoot (root titleId : List Char) : List Char :=
  host.combine root (sanitize host titleId)

def slotDir (titleRoot dirName : List Char) : List Char :=
  host.combine titleRoot (sanitize host dirName)

end Model

/-! ## What names mean -/

inductive Reading
  | stay
  | parent
  | entry (name : List Char)
  | device
deriving DecidableEq, Repr

inductive Location
  | directory (network : Bool) (components : List (List Char))
  | device
deriving DecidableEq, Repr

def Location.enter (floor : ℕ) : Location → Reading → Location
  | .directory network components, .stay => .directory network components
  | .directory network components, .parent =>
      if floor < components.length then .directory network components.dropLast
      else .directory network components
  | .directory network components, .entry name =>
      .directory network (components ++ [name])
  | _, _ => .device

def locate (host : Host) (reading : List Char → Reading) (path : List Char) :
    Location :=
  (host.origin path).parts.foldl
    (fun location name => location.enter (host.origin path).floor (reading name))
    (.directory (host.origin path).network (host.origin path).base)

def Location.StrictlyInside : Location → Location → Prop
  | .directory outerNetwork outer, .directory network components =>
      outerNetwork = network ∧ outer <+: components ∧ outer ≠ components
  | _, _ => False

/-- Two titles are read as the same directory below a save root; at the top of
the file system, staying and going up are the same. -/
def TitlesMeet (floor : ℕ) (root : Location) (first second : Reading) : Prop :=
  first = second ∨ ∃ network components, root = .directory network components ∧
      components.length ≤ floor ∧ first ∈ [.stay, .parent] ∧ second ∈ [.stay, .parent]

/-! ## Sanitized names -/

section Sanitizing

variable {host : Host}

structure IsComponent (host : Host) (name : List Char) : Prop where
  isSegment : IsSegment host.isDirectorySeparator name
  noDrive : host.windows = true → ':' ∉ name

theorem isComponent_defaultName : IsComponent host defaultName := by
  refine ⟨⟨by decide, ?_⟩, fun _ => by decide⟩
  intro letter member
  have plain : defaultName.all (fun other => other ≠ '/' && other ≠ '\\') = true := rfl
  have letterPlain := List.all_eq_true.mp plain letter member
  simp only [decide_not, Bool.and_eq_true, Bool.not_eq_true',
    decide_eq_false_iff_not] at letterPlain
  simp [Host.isDirectorySeparator, letterPlain]

variable {letter : Char}

theorem mem_of_mem_trim {text : List Char} (member : letter ∈ trim host text) : letter ∈ text := by
  have inFront : letter ∈ text.dropWhile host.isWhiteSpace :=
    (List.rdropWhile_prefix _ _).subset member
  exact (List.dropWhile_suffix _).subset inFront

theorem separator_mem_invalid (separates : host.isDirectorySeparator letter = true) :
    letter ∈ invalidFileNameChars host := by
  simp only [Host.isDirectorySeparator, Bool.or_eq_true, beq_iff_eq, Bool.and_eq_true] at separates
  unfold invalidFileNameChars
  rcases separates with rfl | ⟨windows, rfl⟩
  · split <;> simp
  · simp [windows]

theorem isComponent_sanitize (host : Host) (value : List Char) :
    IsComponent host (sanitize host value) := by
  unfold sanitize
  split
  · exact isComponent_defaultName
  · simp only
    split
    · exact isComponent_defaultName
    · rename_i notBlank
      have replaced : ∀ letter ∈ trim host (value.map fun ch =>
          if ch ∈ invalidFileNameChars host then '_' else ch),
            letter = '_' ∨ letter ∉ invalidFileNameChars host := by
        intro letter member
        obtain ⟨ch, _, isLetter⟩ := List.mem_map.mp (mem_of_mem_trim member)
        split at isLetter
        · exact .inl isLetter.symm
        · rename_i valid
          exact .inr (isLetter ▸ valid)
      constructor
      · constructor
        · intro empty
          rw [empty] at notBlank
          exact notBlank rfl
        · intro letter member
          rcases replaced letter member with rfl | valid
          · simp [Host.isDirectorySeparator]
          · by_contra separates
            exact valid (separator_mem_invalid (by simpa using separates))
      · intro windows member
        rcases replaced ':' member with isUnderscore | valid
        · exact absurd isUnderscore (by decide)
        · exact valid (by simp [invalidFileNameChars, windows])

theorem isPathRooted_of_isComponent {name : List Char}
    (component : IsComponent host name) : host.isPathRooted name = false := by
  obtain ⟨head, tail, rfl⟩ := List.exists_cons_of_ne_nil component.isSegment.1
  have plain := component.isSegment.2 head (by simp)
  have noDrive : host.hasDrive (head :: tail) = false := by
    cases tail with
    | nil => rfl
    | cons second rest =>
      rw [hasDrive_cons_cons]
      by_cases windows : host.windows
      · have notColon : second ≠ ':' := by
          rintro rfl
          exact component.noDrive windows (by simp)
        simp [notColon]
      · simp [windows]
  simp [Host.isPathRooted, plain, noDrive]

end Sanitizing

/-! ## Directories below a root -/

section Below

variable {host : Host}

variable {directory name : List Char}

theorem origin_combine (nonempty : directory ≠ []) (notBare : host.isBareDrive directory = false)
    (component : IsComponent host name) :
    host.origin (host.combine directory name) = { host.origin directory with
        parts := (host.origin directory).parts ++ [name] } := by
  have unrooted := isPathRooted_of_isComponent component
  have someName := component.isSegment.1
  have isName : host.segments name = [name] :=
    segments_of_isSegment component.isSegment
  have headPlain : name.head?.any host.isDirectorySeparator = false := by
    simp only [Host.isPathRooted, Bool.or_eq_false_iff] at unrooted
    exact unrooted.1
  have separates : host.isDirectorySeparator host.directorySeparatorChar = true :=
    isDirectorySeparator_directorySeparatorChar
  unfold Host.combine
  rw [if_neg nonempty, if_neg someName, if_neg (by simp [unrooted]), headPlain, Bool.or_false]
  by_cases closed : directory.getLast?.any host.isDirectorySeparator
  · rw [if_pos closed]
    obtain ⟨front, last, rfl⟩ : ∃ front last, directory = front ++ [last] :=
      ⟨_, _, (List.dropLast_append_getLast nonempty).symm⟩
    have lastSeparates : host.isDirectorySeparator last = true := by
      simpa using closed
    rw [List.append_assoc, List.singleton_append,
      origin_append lastSeparates front unrooted someName, isName]
  · rw [if_neg closed, origin_append separates directory unrooted someName, isName,
      origin_append_separator nonempty (by simpa using closed) notBare separates]

theorem locate_combine {reading : List Char → Reading} (nonempty : directory ≠ [])
    (notBare : host.isBareDrive directory = false)
    (component : IsComponent host name) :
    locate host reading (host.combine directory name) =
      (locate host reading directory).enter (host.origin directory).floor (reading name) := by
  simp [locate, origin_combine nonempty notBare component, List.foldl_append]

theorem suffix_combine (directory : List Char) (component : IsComponent host name) :
    name <:+ host.combine directory name := by
  have unrooted := isPathRooted_of_isComponent component
  unfold Host.combine
  simp only [component.isSegment.1, unrooted, if_false, Bool.false_eq_true]
  split
  · exact List.suffix_rfl
  · split
    · exact List.suffix_append _ _
    · exact (List.suffix_cons _ _).trans (List.suffix_append _ _)

theorem combine_ne_nil (directory : List Char) (component : IsComponent host name) :
    host.combine directory name ≠ [] := by
  intro empty
  have isSuffix := suffix_combine directory component
  rw [empty] at isSuffix
  exact component.isSegment.1 (List.suffix_nil.mp isSuffix)

theorem isBareDrive_combine (directory : List Char) (component : IsComponent host name) :
    host.isBareDrive (host.combine directory name) = false := by
  have isSuffix := suffix_combine directory component
  by_contra bare
  unfold Host.isBareDrive at bare
  split at bare
  · rename_i letter isDrive
    have windows : host.windows = true := by
      simp only [Bool.not_eq_false, Bool.and_eq_true] at bare
      exact bare.1
    rw [isDrive] at isSuffix
    obtain ⟨front, isFront⟩ := isSuffix
    have lastColon := congrArg List.getLast? isFront
    rw [List.getLast?_append_of_ne_nil _ component.isSegment.1] at lastColon
    exact component.noDrive windows (List.mem_of_getLast? lastColon)
  · exact bare rfl

theorem isFull_ne_nil {path full : List Char}
    (isFull : host.getFullPath path = .ok full) : full ≠ [] := by
  obtain ⟨ending, _, rfl⟩ := getFullPath_eq isFull
  intro empty
  exact text_ne_nil (canonical_place path) (List.append_eq_nil_iff.mp empty).1

end Below

/-! ## Slots -/

section Slots

variable {host : Host} {reading : List Char → Reading} {path root : List Char}

theorem locate_titleRoot (isRoot : host.getFullPath path = .ok root) (titleId : List Char) :
    locate host reading (titleRoot host root titleId) =
      (locate host reading root).enter (host.origin root).floor (reading (sanitize host titleId)) :=
  locate_combine (isFull_ne_nil isRoot) (isBareDrive_of_isFull isRoot)
    (isComponent_sanitize host titleId)

theorem locate_slotDir (isRoot : host.getFullPath path = .ok root) (titleId dirName : List Char) :
    locate host reading (slotDir host (titleRoot host root titleId) dirName) =
      ((locate host reading root).enter (host.origin root).floor
        (reading (sanitize host titleId))).enter (host.origin root).floor
          (reading (sanitize host dirName)) := by
  have component := isComponent_sanitize host titleId
  have sameFloor : (host.origin (titleRoot host root titleId)).floor =
      (host.origin root).floor := by
    rw [titleRoot, origin_combine (isFull_ne_nil isRoot) (isBareDrive_of_isFull isRoot) component]
  have inTitle : locate host reading (slotDir host (titleRoot host root titleId) dirName) =
        (locate host reading (titleRoot host root titleId)).enter
          (host.origin (titleRoot host root titleId)).floor
          (reading (sanitize host dirName)) :=
    locate_combine (combine_ne_nil root component)
      (isBareDrive_combine root component) (isComponent_sanitize host dirName)
  rw [inTitle, locate_titleRoot isRoot, sameFloor]

theorem strictlyInside_enter_iff (floor : ℕ) (outer : Location) (name : Reading) :
    outer.StrictlyInside (outer.enter floor name) ↔
      outer ≠ .device ∧ ∃ entry, name = .entry entry := by
  cases outer with
  | device => simp [Location.StrictlyInside]
  | directory network components =>
    cases name with
    | stay => simp [Location.enter, Location.StrictlyInside]
    | device => simp [Location.enter, Location.StrictlyInside]
    | entry name => simp [Location.enter, Location.StrictlyInside]
    | parent =>
      simp only [Location.enter, ne_eq, reduceCtorEq, not_false_eq_true,
        exists_false, and_false, iff_false]
      split
      · simp only [Location.StrictlyInside, true_and]
        rintro ⟨isPrefix, _⟩
        have shorter := isPrefix.length_le
        rw [List.length_dropLast] at shorter
        omega
      · simp [Location.StrictlyInside]

theorem enter_ne_device_iff (floor : ℕ) (outer : Location) (name : Reading) :
    outer.enter floor name ≠ .device ↔ outer ≠ .device ∧ name ≠ .device := by
  cases outer with
  | device => simp [Location.enter]
  | directory network components =>
    cases name <;> simp [Location.enter]
    split <;> simp

variable {floor : ℕ}

theorem enter_entry_eq_iff {first second : Location}
    (isPlace : first ≠ .device) (firstName secondName : List Char) :
    first.enter floor (.entry firstName) = second.enter floor (.entry secondName) ↔
      first = second ∧ firstName = secondName := by
  cases first with
  | device => exact absurd rfl isPlace
  | directory firstNetwork firstComponents =>
    cases second with
    | device => simp [Location.enter]
    | directory secondNetwork secondComponents =>
      simp only [Location.enter, Location.directory.injEq, List.append_singleton_inj]
      tauto

theorem enter_eq_enter_iff {outer : Location} {first second : Reading}
    (isPlace : outer.enter floor first ≠ .device) :
    outer.enter floor first = outer.enter floor second ↔
      TitlesMeet floor outer first second := by
  cases outer with
  | device => simp [Location.enter] at isPlace
  | directory network components =>
    have shorter : floor < components.length → components.dropLast ≠ components := by
      intro deeper same
      have lengths := congrArg List.length same
      rw [List.length_dropLast] at lengths
      omega
    have longer (name : List Char) : components ++ [name] ≠ components.dropLast := by
      intro same
      have lengths := congrArg List.length same
      simp only [List.length_append, List.length_singleton, List.length_dropLast] at lengths
      omega
    have meet : TitlesMeet floor (.directory network components) first second ↔
        first = second ∨ (components.length ≤ floor ∧
          first ∈ [Reading.stay, .parent] ∧
          second ∈ [Reading.stay, .parent]) := by
      simp [TitlesMeet]
    rw [meet]
    rcases Nat.lt_or_ge floor components.length with deeper | atTop
    · have notTop : ¬ components.length ≤ floor := by omega
      cases first <;> cases second <;>
        simp [Location.enter, deeper, notTop, shorter deeper, longer,
          (shorter deeper).symm, (longer _).symm]
    · have notDeeper : ¬ floor < components.length := by omega
      cases first <;> cases second <;>
        simp [Location.enter, notDeeper, atTop]

/-- A slot lies strictly inside its title's directory, and slots of different
titles are apart, exactly when the host reads the names as entries and reads the
titles or the slots apart. -/
theorem slots_confined_and_apart_iff (isRoot : host.getFullPath path = .ok root)
    (firstTitle firstDir secondTitle secondDir : List Char) :
    ((locate host reading (titleRoot host root firstTitle)).StrictlyInside (locate host reading
            (slotDir host (titleRoot host root firstTitle) firstDir)) ∧
        (locate host reading (titleRoot host root secondTitle)).StrictlyInside (locate host reading
            (slotDir host (titleRoot host root secondTitle) secondDir)) ∧
        (firstTitle ≠ secondTitle → locate host reading
              (slotDir host (titleRoot host root firstTitle) firstDir) ≠
            locate host reading (slotDir host (titleRoot host root secondTitle) secondDir))) ↔
      locate host reading root ≠ .device ∧ reading (sanitize host firstTitle) ≠ .device ∧
        reading (sanitize host secondTitle) ≠ .device ∧
        (∃ entry, reading (sanitize host firstDir) = .entry entry) ∧
        (∃ entry, reading (sanitize host secondDir) = .entry entry) ∧
        (firstTitle ≠ secondTitle → TitlesMeet (host.origin root).floor (locate host reading root)
              (reading (sanitize host firstTitle))
              (reading (sanitize host secondTitle)) →
            reading (sanitize host firstDir) ≠ reading (sanitize host secondDir)) := by
  simp only [locate_slotDir isRoot, locate_titleRoot isRoot, strictlyInside_enter_iff]
  generalize locate host reading root = outer
  generalize (host.origin root).floor = floor
  generalize reading (sanitize host firstTitle) = firstName
  generalize reading (sanitize host secondTitle) = secondName
  simp only [enter_ne_device_iff]
  constructor
  · rintro ⟨⟨⟨isPlace, firstPlain⟩, firstEntry, isFirst⟩,
      ⟨⟨_, secondPlain⟩, secondEntry, isSecond⟩, apart⟩
    refine ⟨isPlace, firstPlain, secondPlain, ⟨_, isFirst⟩, ⟨_, isSecond⟩, ?_⟩
    intro differ meet sameDir
    have sameTitle : outer.enter floor firstName = outer.enter floor secondName :=
      (enter_eq_enter_iff ((enter_ne_device_iff _ _ _).mpr ⟨isPlace, firstPlain⟩)).mpr meet
    exact apart differ (by rw [sameTitle, sameDir])
  · rintro ⟨isPlace, firstPlain, secondPlain, ⟨firstEntry, isFirst⟩, ⟨secondEntry, isSecond⟩, apart⟩
    refine ⟨⟨⟨isPlace, firstPlain⟩, _, isFirst⟩, ⟨⟨isPlace, secondPlain⟩, _, isSecond⟩, ?_⟩
    intro differ sameSlot
    have titlePlace := (enter_ne_device_iff floor outer firstName).mpr ⟨isPlace, firstPlain⟩
    rw [isFirst, isSecond, enter_entry_eq_iff titlePlace] at sameSlot
    apply apart differ ((enter_eq_enter_iff titlePlace).mp sameSlot.1)
    rw [isFirst, isSecond, sameSlot.2]

end Slots

/-! ## A host that reads names plainly -/

/-- The readings of a POSIX host. -/
def plainReading (name : List Char) : Reading :=
  if name = ['.'] then .stay
  else if name = ['.', '.'] then .parent
  else .entry name

def posixHost : Host := .literal false []

/-- A slot of each of two titles. -/
theorem sample_slots_confined_and_apart :
    let root := "/saves".toList
    let first := titleRoot posixHost root "PPSA15552".toList
    let second := titleRoot posixHost root "CUSA00001".toList
    (locate posixHost plainReading first).StrictlyInside
        (locate posixHost plainReading (slotDir posixHost first "SAVE0000".toList)) ∧
      (locate posixHost plainReading second).StrictlyInside
        (locate posixHost plainReading (slotDir posixHost second "SAVE0000".toList)) ∧
      locate posixHost plainReading (slotDir posixHost first "SAVE0000".toList) ≠
        locate posixHost plainReading (slotDir posixHost second "SAVE0000".toList) := by
  have isRoot : posixHost.getFullPath "/saves".toList = .ok "/saves".toList := by
    decide +kernel
  obtain ⟨firstInside, secondInside, apart⟩ :=
    (@slots_confined_and_apart_iff posixHost plainReading _ _ isRoot "PPSA15552".toList
      "SAVE0000".toList "CUSA00001".toList "SAVE0000".toList).mpr
      ⟨by decide +kernel, by decide +kernel, by decide +kernel,
        ⟨"SAVE0000".toList, by decide +kernel⟩,
        ⟨"SAVE0000".toList, by decide +kernel⟩,
        fun _ meet => by
          rcases meet with same | ⟨_, _, _, _, stays, _⟩
          · exact absurd same (by decide +kernel)
          · exact absurd stays (by decide +kernel)⟩
  exact ⟨firstInside, secondInside, apart (by decide +kernel)⟩

/-- The slot `..` of a title is the save root itself. -/
theorem parent_slot_leaves_title :
    ¬ ∀ (path root : List Char), posixHost.getFullPath path = .ok root → ∀ titleId dirName,
        (locate posixHost plainReading (titleRoot posixHost root titleId)).StrictlyInside
            (locate posixHost plainReading
              (slotDir posixHost (titleRoot posixHost root titleId) dirName)) := by
  intro always
  have isRoot : posixHost.getFullPath "/saves".toList = .ok "/saves".toList := by
    decide +kernel
  have inside := always _ _ isRoot "PPSA15552".toList "..".toList
  rw [locate_slotDir isRoot, locate_titleRoot isRoot, strictlyInside_enter_iff] at inside
  obtain ⟨_, entry, isEntry⟩ := inside
  have isParent : plainReading (sanitize posixHost "..".toList) = .parent := by
    decide +kernel
  rw [isParent] at isEntry
  cases isEntry

end SaveDataStorage
end SharpEmu
