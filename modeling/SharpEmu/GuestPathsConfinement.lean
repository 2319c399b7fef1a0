import SharpEmu.GuestPathsContainment

/-!
# Guest paths that stay in their mount

The remainder of a guest path leaves a mount only through a drive in front of it, or
behind a root that is a bare drive.  A registered mount checks the full path that comes
out; it refuses some paths that it should accept, and a refused path falls to the built-in
prefixes.
-/

namespace SharpEmu
namespace GuestPaths

open PathSegments

section Acceptance

variable (host : Host)

/-- The text of a root is a drive, a share or the top of the file system, with the
separator that trimming keeps. -/
def Host.isTop (root : List Char) : Bool :=
  root.getLast?.any host.isDirectorySeparator && host.rootLength root == root.length

/-- A path with U+0000 is not a path for the host. -/
def Fails (hostRoot : List Char) (parts : List (List Char)) : Prop :=
  (∃ part ∈ parts, Char.ofNat 0 ∈ part) ∨ (host.driveInFront parts = none ∧ Char.ofNat 0 ∈ hostRoot)

/-- A registered mount accepts all segments below a root that keeps no separator when it
is trimmed; with a drive in front, those that lead to the root or below it. -/
def Accepts (hostRoot : List Char) (parts : List (List Char)) : Prop :=
  match host.driveInFront parts with
  | none => parts = [] ∨ host.isTop hostRoot = false
  | some (letter, behind) =>
      let root := host.place hostRoot
      let place := host.placeOnDrive letter behind
      host.Contains root place ∧
        if place.components.length = root.components.length then
          hostRoot.getLast?.any host.isDirectorySeparator = true → host.isTop hostRoot = true
        else host.isTop hostRoot = false

/-- A path under a registered mount is accepted, or the built-in prefix that applies
instead leads inside the mount's root; the remainder of a built-in mount stays under its
root. -/
def Confined (roots : BuiltInRoots) (mounts : List RegisteredMount)
    (guestPath : List Char) : Prop :=
  guestPath.all host.isWhiteSpace = false →
    match registeredMount host mounts guestPath with
    | some (mount, relativePath) =>
        Fails host mount.hostRoot (mountSegments relativePath) ∨
          Accepts host mount.hostRoot (mountSegments relativePath) ∨
          host.Contains (host.place mount.hostRoot) (builtInPlace host roots guestPath)
    | none =>
        match builtInMount host roots guestPath with
        | .under root relativePath => StaysUnder host root (mountSegments relativePath)
        | _ => True

/-- No drive stands in front of the remainder, and the host root is not a drive, a share
or the top of a file system. -/
def Plain (roots : BuiltInRoots) (mounts : List RegisteredMount) (guestPath : List Char) : Prop :=
  match registeredMount host mounts guestPath with
  | some (mount, relativePath) =>
      host.driveInFront (mountSegments relativePath) = none ∧ host.isTop mount.hostRoot = false
  | none =>
      match builtInMount host roots guestPath with
      | .under root relativePath =>
          host.driveInFront (mountSegments relativePath) = none ∧ host.isBareDrive root = false
      | _ => True

end Acceptance

/-! ## Texts of places -/

section Texts

variable {host : Host}

theorem fold_separator :
    host.fold [host.directorySeparatorChar] = [host.directorySeparatorChar] := by
  unfold Host.fold Host.directorySeparatorChar
  split
  · have same := host.upper_backslash '\\'
    rw [beq_self_eq_true, beq_iff_eq] at same
    simp [same]
  · rfl

theorem fold_intercalate (parts : List (List Char)) :
    host.fold ([host.directorySeparatorChar].intercalate parts) =
      [host.directorySeparatorChar].intercalate (parts.map host.fold) := by
  induction parts with
  | nil => unfold Host.fold; split <;> rfl
  | cons part rest ih =>
    cases rest with
    | nil => simp
    | cons next more =>
      rw [List.intercalate_cons_cons, fold_append, fold_append, fold_separator, ih]
      simp [List.intercalate_cons_cons]

variable {names below : List (List Char)}

theorem intercalate_append {separator : List Char} (someNames : names ≠ []) (someBelow : below ≠ []) :
    separator.intercalate (names ++ below) =
      separator.intercalate names ++ separator ++ separator.intercalate below := by
  induction names with
  | nil => exact absurd rfl someNames
  | cons name rest ih =>
    cases rest with
    | nil =>
      obtain ⟨next, more, rfl⟩ := List.exists_cons_of_ne_nil someBelow
      simp [List.intercalate_cons_cons]
    | cons next more =>
      have rest := ih (List.cons_ne_nil _ _)
      simp only [List.cons_append] at rest ⊢
      rw [List.intercalate_cons_cons, rest, List.intercalate_cons_cons]
      simp

theorem getLast?_intercalate (someNames : names ≠ [])
    (areSegments : ∀ name ∈ names, IsSegment host.isDirectorySeparator name) :
    ([host.directorySeparatorChar].intercalate names).getLast?.any
      host.isDirectorySeparator = false := by
  obtain ⟨front, last, rfl⟩ : ∃ front last, names = front ++ [last] :=
    ⟨_, _, (List.dropLast_append_getLast someNames).symm⟩
  obtain ⟨nonempty, plain⟩ := areSegments last (by simp)
  have ends : ∃ before, [host.directorySeparatorChar].intercalate (front ++ [last]) =
      before ++ last := by
    by_cases noFront : front = []
    · exact ⟨[], by simp [noFront]⟩
    · exact ⟨_, by
        rw [intercalate_append noFront (List.cons_ne_nil _ _), List.intercalate_singleton]⟩
  obtain ⟨before, isText⟩ := ends
  rw [isText, List.getLast?_append_of_ne_nil _ nonempty,
    List.getLast?_eq_some_getLast nonempty, Option.any_some]
  exact plain _ (List.getLast_mem nonempty)

/-- The text of the place ends in a separator of its own. -/
def Host.isCapped (host : Host) (place : Place) : Bool :=
  host.isVolumeRoot place || place.components.isEmpty

theorem text_eq (place : Place) : host.text place =
      (if host.windows then if place.network then ['\\', '\\'] else [] else ['/']) ++
        [host.directorySeparatorChar].intercalate place.components ++
        if host.windows && host.isVolumeRoot place then ['\\'] else [] := by
  have notNetwork : place.network = true → host.isVolumeRoot place = false := by
    intro isNetwork
    simp [Host.isVolumeRoot, isNetwork]
  unfold Host.text
  by_cases windows : host.windows
  · by_cases network : place.network
    · simp [windows, network, notNetwork]
    · by_cases root : host.isVolumeRoot place <;> simp [windows, network, root]
  · simp [windows]

variable {place : Place}

theorem getLast?_text (canonical : host.Canonical place) :
    (host.text place).getLast?.any host.isDirectorySeparator = host.isCapped place := by
  have separates := @isDirectorySeparator_directorySeparatorChar host
  by_cases empty : place.components = []
  · have isCapped : host.isCapped place = true := by simp [Host.isCapped, empty]
    rw [isCapped, text_eq, empty]
    by_cases windows : host.windows
    · cases network : place.network with
      | true => simp [windows, Host.isVolumeRoot, network, Host.isDirectorySeparator]
      | false =>
        obtain ⟨letter, rest, -, components⟩ := canonical.drive windows network
        rw [components] at empty
        cases empty
    · simp [windows, Host.isDirectorySeparator]
  · have plain := getLast?_intercalate empty fun name member =>
      (canonical.names name member).1
    have someText : [host.directorySeparatorChar].intercalate place.components ≠ [] := by
      intro noText
      apply empty
      rw [← segments_intercalate_names canonical.names, noText]
      rfl
    have isCapped : host.isCapped place = host.isVolumeRoot place := by
      simp [Host.isCapped, empty]
    rw [isCapped, text_eq]
    by_cases volume : host.windows = true ∧ host.isVolumeRoot place = true
    · simp [volume, Host.isDirectorySeparator]
    · have notVolume : host.isVolumeRoot place = false := by
        by_cases windows : host.windows
        · simpa [windows] using volume
        · have long : place.components.length ≠ 0 := by simpa using empty
          simp only [Host.isVolumeRoot, windows, Bool.false_eq_true, if_false,
            Bool.and_eq_false_iff, decide_eq_false_iff_not]
          exact .inr (by omega)
      rw [notVolume, Bool.and_false, if_neg Bool.false_ne_true, List.append_nil,
        List.getLast?_append_of_ne_nil _ someText]
      exact plain

/-- What stands behind the text of a place in the text of one below it. -/
theorem fold_text_below {root : Place}
    (canonical : host.Canonical root) (network : place.network = root.network)
    (names : place.components.map host.fold = root.components.map host.fold ++ below)
    (someBelow : below ≠ []) :
    host.fold (host.text place) = host.fold (host.text root) ++
        ((if host.isCapped root then [] else [host.directorySeparatorChar]) ++
          [host.directorySeparatorChar].intercalate below) := by
  have longer : place.components.length = root.components.length + below.length := by
    have lengths := congrArg List.length names
    rwa [List.length_map, List.length_append, List.length_map] at lengths
  have belowLong : 0 < below.length := List.length_pos_iff.mpr someBelow
  have notVolume : host.windows = true → host.isVolumeRoot place = false := by
    intro windows
    cases isNetwork : place.network with
    | true => simp [Host.isVolumeRoot, isNetwork]
    | false =>
      obtain ⟨letter, rest, -, components⟩ :=
        canonical.drive windows (network.symm.trans isNetwork)
      rw [components, List.length_cons] at longer
      simp only [Host.isVolumeRoot, windows, if_true, Bool.and_eq_false_iff,
        decide_eq_false_iff_not]
      exact .inr (by omega)
  have noEnd : (if host.windows && host.isVolumeRoot place then ['\\'] else []) =
      ([] : List Char) := by
    by_cases windows : host.windows
    · rw [notVolume windows, Bool.and_false, if_neg Bool.false_ne_true]
    · simp [windows]
  rw [text_eq, text_eq, noEnd, List.append_nil, network, fold_append, fold_append, fold_append,
    fold_intercalate, fold_intercalate, names]
  by_cases empty : root.components = []
  · have notWindowsVolume : (host.windows && host.isVolumeRoot root) = false := by
      by_cases windows : host.windows
      · cases isNetwork : root.network with
        | true => simp [Host.isVolumeRoot, isNetwork]
        | false =>
          obtain ⟨letter, rest, -, components⟩ := canonical.drive windows isNetwork
          rw [components] at empty
          cases empty
      · simp [windows]
    have isCapped : host.isCapped root = true := by simp [Host.isCapped, empty]
    rw [notWindowsVolume, isCapped, empty]
    simp [Host.fold]
  · have someNames : root.components.map host.fold ≠ [] := by simpa using empty
    have isCapped : host.isCapped root = host.isVolumeRoot root := by
      simp [Host.isCapped, empty]
    rw [intercalate_append someNames someBelow, isCapped]
    by_cases volume : host.isVolumeRoot root
    · have windows : host.windows = true := by
        by_contra notWindows
        have long : root.components.length ≠ 0 := by simpa using empty
        simp only [Host.isVolumeRoot, notWindows, if_false, Bool.and_eq_true,
          decide_eq_true_eq] at volume
        omega
      have separator : host.directorySeparatorChar = '\\' := by
        simp [Host.directorySeparatorChar, windows]
      rw [volume, windows, Bool.and_self, ← separator]
      simp only [if_true, fold_separator, List.nil_append, List.append_assoc]
    · simp [volume, Host.fold]

end Texts

/-! ## The check of a registered mount -/

section Check

variable {host : Host}

/-- A separator that stands behind the text of a place in a full path. -/
def Host.EndsFull (host : Host) (place : Place) (ending : List Char) : Prop :=
  ending = [] ∨ (ending = [host.directorySeparatorChar] ∧ host.isVolumeRoot place = false)

variable {place : Place} {ending : List Char}

theorem Host.EndsFull.isEnd (ends : host.EndsFull place ending) : host.IsEnd ending :=
  ends.imp_right fun behind => behind.1

variable {path full : List Char}

theorem getFullPath_eq_ok_iff : host.getFullPath path = .ok full ↔
      Char.ofNat 0 ∉ path ∧ full = host.text (host.place path) ++
          if path.getLast?.any host.isDirectorySeparator &&
            !host.isVolumeRoot (host.place path) then [host.directorySeparatorChar]
          else [] := by
  unfold Host.getFullPath
  split
  · rename_i null
    simp [null]
  · rename_i noNull
    simp only [noNull, not_false_eq_true, true_and]
    split
    · simp only [Except.ok.injEq]
      exact eq_comm
    · simp only [Except.ok.injEq, List.append_nil]
      exact eq_comm

theorem exists_endsFull (isFull : host.getFullPath path = .ok full) :
    ∃ ending, full = host.text (host.place full) ++ ending ∧
      host.EndsFull (host.place full) ending := by
  obtain ⟨-, isText⟩ := getFullPath_eq_ok_iff.mp isFull
  have ends : host.EndsFull (host.place path) (if path.getLast?.any host.isDirectorySeparator &&
        !host.isVolumeRoot (host.place path) then [host.directorySeparatorChar]
      else []) := by
    split
    · rename_i separated
      simp only [Bool.and_eq_true, Bool.not_eq_true'] at separated
      exact .inr ⟨rfl, separated.2⟩
    · exact .inl rfl
  have samePlace : host.place full = host.place path := by
    rw [isText]
    exact (place_text (canonical_place path) ends.isEnd).1
  rw [samePlace]
  exact ⟨_, isText, ends⟩

variable {root : Place}

theorem isTop_of_capped (canonical : host.Canonical root) (ends : host.EndsFull root ending)
    (capped : host.isCapped root = true) :
    host.isTop (host.text root ++ ending) = true := by
  by_cases windows : host.windows
  · have separator : host.directorySeparatorChar = '\\' := by
      simp [Host.directorySeparatorChar, windows]
    cases network : root.network with
    | true =>
      have notVolume : host.isVolumeRoot root = false := by
        simp [Host.isVolumeRoot, network]
      have noNames : root.components = [] := by
        simpa [Host.isCapped, notVolume] using capped
      have isText : host.text root = ['\\', '\\'] := by
        simp [text_eq, windows, network, noNames, notVolume]
      rcases ends with rfl | ⟨rfl, -⟩ <;>
        simp [isText, Host.isTop, Host.rootLength, windows, separator, Host.isDirectorySeparator]
    | false =>
      obtain ⟨letter, rest, valid, components⟩ := canonical.drive windows network
      have volume : host.isVolumeRoot root = true := by
        simpa [Host.isCapped, components] using capped
      obtain rfl : rest = [] := by
        simpa [Host.isVolumeRoot, network, windows, components] using volume
      obtain rfl : ending = [] := by simpa [Host.EndsFull, volume] using ends
      have letterPlain := @isDirectorySeparator_of_valid host _ valid
      have isText : host.text root = [letter, ':', '\\'] := by
        simp [text_eq, windows, network, components, volume]
      simp [isText, Host.isTop, Host.rootLength, windows, letterPlain, valid,
        isDirectorySeparator_backslash windows]
  · have noNames : root.components = [] := by
      simp only [Host.isCapped, Host.isVolumeRoot, windows, Bool.false_eq_true, if_false,
        Nat.le_zero, List.length_eq_zero_iff, List.isEmpty_iff, Bool.or_eq_true,
        Bool.and_eq_true, decide_eq_true_eq] at capped
      exact capped.elim (fun volume => volume.2) id
    have isLocal : root.network = false := by
      by_contra isNetwork
      exact windows (canonical.onWindows (by simpa using isNetwork))
    obtain rfl : ending = [] := by
      simpa [Host.EndsFull, Host.isVolumeRoot, isLocal, noNames] using ends
    simp [text_eq, windows, noNames, Host.isTop, Host.rootLength, isDirectorySeparator_slash]

theorem trimEndingDirectorySeparator_eq (path : List Char) :
    host.trimEndingDirectorySeparator path =
      if path.getLast?.any host.isDirectorySeparator = true ∧ host.isTop path = false then
        path.dropLast
      else path := by
  unfold Host.trimEndingDirectorySeparator Host.isTop
  by_cases closed : path.getLast?.any host.isDirectorySeparator
  · by_cases whole : host.rootLength path = path.length <;> simp [closed, whole]
  · simp [closed]

variable {below : List (List Char)}

theorem head?_intercalate_below (canonical : host.Canonical place)
    (names : place.components.map host.fold = root.components.map host.fold ++ below)
    (someBelow : below ≠ []) :
    ∃ letter rest, [host.directorySeparatorChar].intercalate below = letter :: rest ∧
      host.isDirectorySeparator letter = false := by
  obtain ⟨first, more, rfl⟩ := List.exists_cons_of_ne_nil someBelow
  have member : first ∈ place.components.map host.fold := by simp [names]
  obtain ⟨name, isName, rfl⟩ := List.mem_map.mp member
  obtain ⟨nonempty, plain⟩ := (canonical.names name isName).1
  obtain ⟨letter, rest, rfl⟩ := List.exists_cons_of_ne_nil nonempty
  have letterPlain := plain letter List.mem_cons_self
  have isHead : ∃ other rest', host.fold (letter :: rest) = other :: rest' ∧
      host.isDirectorySeparator other = false := by
    unfold Host.fold
    split
    · exact ⟨_, _, rfl, (isDirectorySeparator_upper letter).trans letterPlain⟩
    · exact ⟨_, _, rfl, letterPlain⟩
  obtain ⟨other, rest', isFolded, otherPlain⟩ := isHead
  rw [isFolded]
  cases more with
  | nil => exact ⟨other, rest', List.intercalate_singleton, otherPlain⟩
  | cons next others =>
    rw [List.intercalate_cons_cons, List.cons_append, List.cons_append]
    exact ⟨other, _, rfl, otherPlain⟩

variable {candidate : List Char}

theorem isContained_iff {root : List Char} : host.isContained candidate root = true ↔
      host.fold candidate = host.fold root ∨ host.fold (host.trimEndingDirectorySeparator root) ++
          [host.directorySeparatorChar] <+: host.fold candidate := by
  rw [Host.isContained, Bool.or_eq_true, beq_iff_eq, List.isPrefixOf_iff_prefix,
    fold_append, fold_separator]

theorem length_fold (text : List Char) : (host.fold text).length = text.length := by
  unfold Host.fold
  split <;> simp

/-- A place below the root is accepted unless trimming the root keeps its separator. -/
theorem isContained_below (placeCanonical : host.Canonical place)
    (canonical : host.Canonical root) (ends : host.EndsFull root ending)
    (network : place.network = root.network)
    (names : place.components.map host.fold = root.components.map host.fold ++ below)
    (someBelow : below ≠ []) :
    host.isContained (host.text place) (host.text root ++ ending) = true ↔
      host.isTop (host.text root ++ ending) = false := by
  have separates := @isDirectorySeparator_directorySeparatorChar host
  obtain ⟨letter, rest, isBelow, letterPlain⟩ :=
    head?_intercalate_below placeCanonical names someBelow
  have notSeparator : letter ≠ host.directorySeparatorChar := by
    rintro rfl
    rw [separates] at letterPlain
    cases letterPlain
  have isEnding : host.fold ending = ending := by
    rcases ends with rfl | ⟨rfl, -⟩
    · exact List.length_eq_zero_iff.mp (length_fold [])
    · exact fold_separator
  rw [isContained_iff, fold_text_below canonical network names someBelow, isBelow,
    trimEndingDirectorySeparator_eq]
  have closes := getLast?_text canonical
  cases capped : host.isCapped root with
  | true =>
    have isTop := isTop_of_capped canonical ends capped
    simp only [isTop, Bool.true_eq_false, and_false, if_false, if_true, fold_append,
      isEnding, List.nil_append, iff_false, not_or]
    constructor
    · intro same
      have isRest := List.append_cancel_left same
      rcases ends with rfl | ⟨rfl, -⟩
      · cases isRest
      · exact notSeparator (List.cons.inj isRest).1
    · rw [List.append_assoc, List.prefix_append_right_inj]
      rcases ends with rfl | ⟨rfl, -⟩
      · intro isPrefix
        exact notSeparator (List.cons_prefix_cons.mp isPrefix).1.symm
      · intro isPrefix
        exact notSeparator (List.cons_prefix_cons.mp isPrefix).1.symm
  | false =>
    rw [capped] at closes
    rw [if_neg Bool.false_ne_true, List.singleton_append]
    clear isEnding
    rcases ends with rfl | ⟨rfl, -⟩
    · have notTop : host.isTop (host.text root ++ []) = false := by
        rw [Host.isTop, List.append_nil, closes, Bool.false_and]
      rw [notTop, List.append_nil, if_neg (by simp [closes])]
      refine iff_of_true (.inr ?_) rfl
      rw [List.prefix_append_right_inj]
      exact List.cons_prefix_cons.mpr ⟨rfl, List.nil_prefix⟩
    · have closed : (host.text root ++ [host.directorySeparatorChar]).getLast?.any
          host.isDirectorySeparator = true := by
        simpa using separates
      cases top : host.isTop (host.text root ++ [host.directorySeparatorChar]) with
      | true =>
        simp only [Bool.true_eq_false, and_false, if_false, fold_append, fold_separator,
          iff_false, not_or]
        constructor
        · intro same
          have isRest := List.append_cancel_left same
          cases (List.cons.inj isRest).2
        · rw [List.append_assoc, List.prefix_append_right_inj]
          intro isPrefix
          have behind := (List.cons_prefix_cons.mp isPrefix).2
          exact notSeparator (List.cons_prefix_cons.mp behind).1.symm
      | false =>
        rw [if_pos ⟨closed, rfl⟩, List.dropLast_concat]
        refine iff_of_true (.inr ?_) rfl
        rw [List.prefix_append_right_inj]
        exact List.cons_prefix_cons.mpr ⟨rfl, List.nil_prefix⟩

/-- The root's own place is accepted when the root's text has nothing behind it. -/
theorem isContained_same (ends : host.EndsFull root ending)
    (sameText : host.fold (host.text place) = host.fold (host.text root)) :
    host.isContained (host.text place) (host.text root ++ ending) = true ↔ ending = [] := by
  rw [isContained_iff, sameText]
  constructor
  · rintro (same | isPrefix)
    · have lengths := congrArg List.length same
      rw [length_fold, length_fold, List.length_append] at lengths
      exact List.length_eq_zero_iff.mp (by omega)
    · rcases ends with rfl | ⟨rfl, -⟩
      · rfl
      · have shorter := isPrefix.length_le
        rw [List.length_append, length_fold, length_fold,
          trimEndingDirectorySeparator_eq] at shorter
        exfalso
        split at shorter <;>
          simp only [List.dropLast_concat, List.length_append, List.length_singleton]
            at shorter <;> omega
  · rintro rfl
    rw [List.append_nil]
    exact .inl rfl

theorem isContained_itself {root : List Char} (rootFull : host.getFullPath path = .ok root)
    (again : host.getFullPath root = .ok candidate) :
    host.isContained candidate root = true := by
  obtain ⟨ending, isRoot, ends⟩ := exists_endsFull rootFull
  obtain ⟨-, isCandidate⟩ := getFullPath_eq_ok_iff.mp again
  have canonical : host.Canonical (host.place root) := canonical_place root
  generalize host.place root = place at *
  rw [isContained_iff]
  by_cases separated : root.getLast?.any host.isDirectorySeparator = true ∧
      host.isVolumeRoot place = false
  · rw [if_pos (by simp [separated])] at isCandidate
    rcases ends with rfl | ⟨rfl, -⟩
    · rw [List.append_nil] at isRoot
      have capped : host.isCapped place = true := by
        rw [← getLast?_text canonical, ← isRoot]
        exact separated.1
      have isTop := isTop_of_capped canonical (.inl rfl) capped
      rw [List.append_nil, ← isRoot] at isTop
      rw [trimEndingDirectorySeparator_eq, isTop, if_neg (by simp), isCandidate, ← isRoot,
        fold_append, fold_separator]
      exact .inr List.prefix_rfl
    · rw [isCandidate, ← isRoot]
      exact .inl rfl
  · rw [if_neg (by simpa using separated), List.append_nil] at isCandidate
    have noEnding : ending = [] := by
      rcases ends with none | ⟨isSeparator, notVolume⟩
      · exact none
      · refine absurd ⟨?_, notVolume⟩ separated
        rw [isRoot, isSeparator]
        simpa using @isDirectorySeparator_directorySeparatorChar host
    rw [noEnding, List.append_nil] at isRoot
    rw [isCandidate, isRoot]
    exact .inl rfl

theorem fold_text_congr (network : place.network = root.network)
    (names : place.components.map host.fold = root.components.map host.fold) :
    host.fold (host.text place) = host.fold (host.text root) := by
  have sameLength : place.components.length = root.components.length := by
    simpa using congrArg List.length names
  have sameVolume : host.isVolumeRoot place = host.isVolumeRoot root := by
    simp [Host.isVolumeRoot, network, sameLength]
  simp only [text_eq, fold_append, fold_intercalate, names, network, sameVolume]

theorem ending_eq_nil_iff (canonical : host.Canonical root) (isLocal : root.network = false)
    (ends : host.EndsFull root ending) :
    ending = [] ↔ ((host.text root ++ ending).getLast?.any host.isDirectorySeparator = true →
        host.isTop (host.text root ++ ending) = true) := by
  constructor
  · intro noEnding closed
    rw [noEnding, List.append_nil, getLast?_text canonical] at closed
    exact isTop_of_capped canonical ends closed
  · intro kept
    rcases ends with noEnding | ⟨rfl, notVolume⟩
    · exact noEnding
    · exfalso
      have whole := kept (by
        simpa using @isDirectorySeparator_directorySeparatorChar host)
      rw [Host.isTop, Bool.and_eq_true, beq_iff_eq] at whole
      by_cases windows : host.windows
      · obtain ⟨letter, rest, valid, components⟩ := canonical.drive windows isLocal
        have isPlace : root = ⟨false, [letter, ':'] :: rest⟩ := by
          rw [← isLocal, ← components]
        have letterPlain := @isDirectorySeparator_of_valid host _ valid
        have rootLength := whole.2
        rw [isPlace, text_drive windows] at rootLength
        simp [Host.rootLength, windows, letterPlain, valid,
          isDirectorySeparator_backslash windows] at rootLength
      · have rootLength := whole.2
        simp [Host.rootLength, windows, text_eq, isDirectorySeparator_slash] at rootLength

/-- What a registered mount does with a place that a drive in front leads to. -/
theorem isContained_drive_iff {root : List Char} (rootFull : host.getFullPath path = .ok root)
    (isFull : host.getFullPath full = .ok (host.text place))
    (leads : host.place full = place) (isLocal : place.network = false) :
    host.isContained (host.text place) root = true ↔ host.Contains (host.place root) place ∧
        if place.components.length = (host.place root).components.length then
          root.getLast?.any host.isDirectorySeparator = true → host.isTop root = true
        else host.isTop root = false := by
  obtain ⟨ending, isRoot, ends⟩ := exists_endsFull rootFull
  have canonical : host.Canonical (host.place root) := canonical_place root
  have placeCanonical : host.Canonical place := leads ▸ canonical_place full
  have samePlace : host.place (host.text place) = place := by
    have read := (place_text placeCanonical (.inl rfl : host.IsEnd [])).1
    rwa [List.append_nil] at read
  have sound (accepted : host.isContained (host.text place) root = true) :
      host.Contains (host.place root) place := by
    have contained := contains_of_isContained rootFull isFull accepted
    rwa [samePlace] at contained
  have decided (contained : host.Contains (host.place root) place) :
      host.isContained (host.text place) root = true ↔
        if place.components.length = (host.place root).components.length then
          root.getLast?.any host.isDirectorySeparator = true → host.isTop root = true
        else host.isTop root = false := by
    obtain ⟨network, below, names⟩ := contained
    have lengths := congrArg List.length names
    rw [List.length_append, List.length_map, List.length_map] at lengths
    have rootLocal : (host.place root).network = false := network.trans isLocal
    generalize host.place root = place' at *
    subst isRoot
    by_cases noneBelow : below = []
    · rw [noneBelow, List.append_nil] at names
      rw [if_pos (by simp [noneBelow] at lengths; omega),
        isContained_same ends (fold_text_congr network.symm names.symm)]
      exact ending_eq_nil_iff canonical rootLocal ends
    · have someBelow : 0 < below.length := List.length_pos_iff.mpr noneBelow
      rw [if_neg (by omega)]
      exact isContained_below placeCanonical canonical ends network.symm names.symm noneBelow
  constructor
  · intro accepted
    exact ⟨sound accepted, (decided (sound accepted)).mp accepted⟩
  · rintro ⟨contained, kept⟩
    exact (decided contained).mpr kept

theorem mem_intercalate_iff {letter separator : Char} (different : letter ≠ separator)
    (parts : List (List Char)) :
    letter ∈ [separator].intercalate parts ↔ ∃ part ∈ parts, letter ∈ part := by
  induction parts with
  | nil => simp
  | cons part rest ih =>
    cases rest with
    | nil => simp
    | cons next more =>
      rw [List.intercalate_cons_cons, List.mem_append, List.mem_append, ih]
      simp [different]

theorem null_mem_combine_iff {root relativePath : List Char} (someRoot : root ≠ []) :
    Char.ofNat 0 ∈ host.combine root (normalizeMountRelativePath host relativePath) ↔
      Fails host root (mountSegments relativePath) := by
  have notSeparator : Char.ofNat 0 ≠ host.directorySeparatorChar := by
    unfold Host.directorySeparatorChar
    split <;> decide
  have inParts : Char.ofNat 0 ∈ normalizeMountRelativePath host relativePath ↔
      ∃ part ∈ mountSegments relativePath, Char.ofNat 0 ∈ part :=
    mem_intercalate_iff notSeparator _
  rw [combine_eq, Fails]
  cases drive : host.driveInFront (mountSegments relativePath) with
  | some found => simp [inParts]
  | none =>
    simp only [Option.isSome_none, Bool.false_eq_true, someRoot, or_self, if_false, true_and]
    split
    · rename_i noParts
      simp [noParts]
    · split <;> simp [inParts, notSeparator, or_comm]

theorem placeOnDrive_network (letter : Char) (behind : List (List Char)) :
    (host.placeOnDrive letter behind).network = false := by
  unfold Host.placeOnDrive
  split <;> rfl

theorem normalized_not_closed {relativePath : List Char}
    (someParts : mountSegments relativePath ≠ []) (front : List Char) :
    (front ++ normalizeMountRelativePath host relativePath).getLast?.any
      host.isDirectorySeparator = false := by
  have areNames : ∀ name ∈ mountSegments relativePath, host.IsName name :=
    fun _ => isName_of_mem_mountSegments
  have someText : normalizeMountRelativePath host relativePath ≠ [] := by
    intro noText
    apply someParts
    rw [← @segments_normalizeMountRelativePath host, noText]
    rfl
  rw [List.getLast?_append_of_ne_nil _ someText]
  exact getLast?_intercalate someParts fun name member => (areNames name member).1

/-- What a registered mount does with a remainder. -/
theorem isContained_candidate_iff {root relativePath : List Char}
    (rootFull : host.getFullPath path = .ok root)
    (isCandidate : host.getFullPath
      (host.combine root (normalizeMountRelativePath host relativePath)) = .ok candidate) :
    host.isContained candidate root = true ↔ Accepts host root (mountSegments relativePath) := by
  have areNames : ∀ name ∈ mountSegments relativePath, host.IsName name :=
    fun _ => isName_of_mem_mountSegments
  have someRoot : root ≠ [] := by
    obtain ⟨ending, isRoot, -⟩ := exists_endsFull rootFull
    intro noRoot
    rw [noRoot] at isRoot
    exact text_ne_nil (canonical_place _) (List.append_eq_nil_iff.mp isRoot.symm).1
  have leads := @place_combine host root relativePath
  have isPath := @combine_eq host root relativePath
  obtain ⟨noNull, isText⟩ := getFullPath_eq_ok_iff.mp isCandidate
  unfold Accepts Host.placeUnder at *
  cases drive : host.driveInFront (mountSegments relativePath) with
  | some found =>
    obtain ⟨letter, behind⟩ := found
    have someParts : mountSegments relativePath ≠ [] := by
      intro noParts
      rw [noParts] at drive
      cases drive
    rw [drive] at leads isPath
    rw [if_pos (.inl rfl)] at isPath
    have notClosed := @normalized_not_closed host _ someParts []
    rw [List.nil_append, ← isPath] at notClosed
    rw [notClosed, Bool.false_and, if_neg Bool.false_ne_true, List.append_nil, leads] at isText
    subst isText
    exact isContained_drive_iff rootFull isCandidate leads (placeOnDrive_network _ _)
  | none =>
    simp only [drive, Option.isSome_none, Bool.false_eq_true, someRoot, or_self, if_false] at isPath
    by_cases noParts : mountSegments relativePath = []
    · rw [if_pos noParts] at isPath
      rw [isPath] at isCandidate
      exact iff_of_true (isContained_itself rootFull isCandidate) (.inl noParts)
    · have notClosed : (host.combine root
          (normalizeMountRelativePath host relativePath)).getLast?.any
            host.isDirectorySeparator = false := by
        rw [isPath, if_neg noParts]
        split
        · exact normalized_not_closed noParts root
        · have closes := @normalized_not_closed host _ noParts
            (root ++ [host.directorySeparatorChar])
          rwa [List.append_assoc] at closes
      have isPlace : host.placeUnder root (mountSegments relativePath) = ⟨(host.place root).network,
            (host.place root).components ++ mountSegments relativePath⟩ := by
        simp [Host.placeUnder, drive, isBareDrive_of_isFull rootFull]
      rw [notClosed, Bool.false_and, if_neg Bool.false_ne_true, List.append_nil,
        place_combine, isPlace] at isText
      obtain ⟨ending, isRoot, ends⟩ := exists_endsFull rootFull
      have canonical : host.Canonical (host.place root) := canonical_place root
      have placeCanonical := @canonical_place host
        (host.combine root (normalizeMountRelativePath host relativePath))
      rw [place_combine, isPlace] at placeCanonical
      rw [isText]
      generalize host.place root = place at *
      subst isRoot
      rw [isContained_below placeCanonical canonical ends rfl List.map_append
        (by simpa using noParts)]
      simp [noParts]

section Outcomes

variable {mounts : GuestMounts host} {guestPath relativePath : List Char}
variable {mount : RegisteredMount}

theorem tryResolve_cases
    (registered : registeredMount host mounts.mounts guestPath = some (mount, relativePath)) :
    (Fails host mount.hostRoot (mountSegments relativePath) ∧
        tryResolveRegisteredGuestMount host mounts.mounts guestPath = .error .nullCharacter) ∨
      (¬ Fails host mount.hostRoot (mountSegments relativePath) ∧
        Accepts host mount.hostRoot (mountSegments relativePath) ∧ ∃ candidate,
          tryResolveRegisteredGuestMount host mounts.mounts guestPath = .ok (some candidate) ∧
          host.place candidate = host.placeUnder mount.hostRoot (mountSegments relativePath) ∧
          host.Contains (host.place mount.hostRoot) (host.place candidate)) ∨
      (¬ Fails host mount.hostRoot (mountSegments relativePath) ∧
        ¬ Accepts host mount.hostRoot (mountSegments relativePath) ∧
        tryResolveRegisteredGuestMount host mounts.mounts guestPath = .ok none) := by
  obtain ⟨path, rootFull⟩ := mounts.fullRoots mount (mem_of_registeredMount registered)
  have someRoot : mount.hostRoot ≠ [] := by
    obtain ⟨ending, isRoot, -⟩ := exists_endsFull rootFull
    intro noRoot
    rw [noRoot] at isRoot
    exact text_ne_nil (canonical_place _) (List.append_eq_nil_iff.mp isRoot.symm).1
  have nulls := @null_mem_combine_iff host _ relativePath someRoot
  simp only [tryResolveRegisteredGuestMount, registered]
  cases candidateFull : host.getFullPath (host.combine mount.hostRoot
      (normalizeMountRelativePath host relativePath)) with
  | error reason =>
    refine .inl ⟨?_, ?_⟩
    · by_contra noNull
      rw [getFullPath_eq_ok_iff.mpr ⟨fun null => noNull (nulls.mp null), rfl⟩] at candidateFull
      cases candidateFull
    · cases reason
      rfl
  | ok candidate =>
    have noNull := (getFullPath_eq_ok_iff.mp candidateFull).1
    have accepts := isContained_candidate_iff rootFull candidateFull
    right
    change (_ ∧ _ ∧ ∃ _, (if host.isContained candidate mount.hostRoot then
      Except.ok (some candidate) else Except.ok none) = _ ∧ _) ∨ (_ ∧ _ ∧
        (if host.isContained candidate mount.hostRoot then
          Except.ok (some candidate) else Except.ok none) = _)
    cases isContained : host.isContained candidate mount.hostRoot with
    | true =>
      obtain ⟨ending, isEnd, isCandidate⟩ := getFullPath_eq candidateFull
      refine .inl ⟨fun fails => noNull (nulls.mpr fails), accepts.mp isContained,
        candidate, if_pos rfl, ?_, contains_of_isContained rootFull candidateFull isContained⟩
      rw [isCandidate, (place_text (canonical_place _) isEnd).1, place_combine]
    | false =>
      refine .inr ⟨fun fails => noNull (nulls.mpr fails), fun accepted => ?_,
        if_neg Bool.false_ne_true⟩
      rw [accepts.mpr accepted] at isContained
      cases isContained

end Outcomes

end Check

/-! ## Guest paths -/

section Resolution

variable {host : Host}

theorem network_of_not_windows (notWindows : host.windows = false) (path : List Char) :
    (host.place path).network = false := by
  by_contra isNetwork
  have windows := (canonical_place path).onWindows (by simpa using isNetwork)
  rw [notWindows] at windows
  cases windows

theorem driveInFront_of_not_windows (notWindows : host.windows = false)
    (parts : List (List Char)) : host.driveInFront parts = none := by
  unfold Host.driveInFront
  split <;> simp [notWindows]

theorem components_of_isTop (notWindows : host.windows = false) {root : List Char}
    (top : host.isTop root = true) : (host.place root).components = [] := by
  simp only [Host.isTop, Bool.and_eq_true, beq_iff_eq] at top
  have isRoot : root = ['/'] := by
    match root, top with
    | [only], ⟨closed, _⟩ =>
      simpa [Host.isDirectorySeparator, notWindows] using closed
    | first :: second :: rest, ⟨_, short⟩ =>
      simp only [Host.rootLength, notWindows, Bool.false_eq_true, if_false,
        List.length_cons] at short
      split at short <;> omega
  rw [isRoot]
  simp [Host.place, Host.origin, Host.isPathRooted, notWindows,
    isDirectorySeparator_slash, Origin.place, Host.segments,
    segments_cons [] isDirectorySeparator_slash]

theorem network_builtInPlace (notWindows : host.windows = false) (roots : BuiltInRoots)
    (guestPath : List Char) : (builtInPlace host roots guestPath).network = false := by
  rw [← place_hostPath]
  exact network_of_not_windows notWindows _

theorem confined_of_plain {roots : BuiltInRoots} {mounts : List RegisteredMount}
    {guestPath : List Char}
    (plain : host.windows = false ∨ Plain host roots mounts guestPath) :
    Confined host roots mounts guestPath := by
  intro notBlank
  unfold Plain at plain
  cases registered : registeredMount host mounts guestPath with
  | some found =>
    obtain ⟨mount, relativePath⟩ := found
    rw [registered] at plain
    dsimp only at plain ⊢
    by_cases top : host.isTop mount.hostRoot = true
    · rcases plain with notWindows | ⟨-, notTop⟩
      · refine .inr (.inr ⟨?_, ?_⟩)
        · rw [network_of_not_windows notWindows, network_builtInPlace notWindows]
        · rw [components_of_isTop notWindows top]
          exact List.nil_prefix
      · rw [notTop] at top
        cases top
    · have noDrive : host.driveInFront (mountSegments relativePath) = none :=
        plain.elim (driveInFront_of_not_windows · _) fun isPlain => isPlain.1
      refine .inr (.inl ?_)
      rw [Accepts, noDrive]
      exact .inr (by simpa using top)
  | none =>
    rw [registered] at plain
    dsimp only at plain ⊢
    cases isMount : builtInMount host roots guestPath with
    | under root relativePath =>
      rw [isMount] at plain
      have noDrive : host.driveInFront (mountSegments relativePath) = none :=
        plain.elim (driveInFront_of_not_windows · _) fun isPlain => isPlain.1
      have notBare : host.isBareDrive root = false :=
        plain.elim (isBareDrive_of_not_windows · _) fun isPlain => isPlain.2
      simp only [StaysUnder, noDrive]
      intro bare
      rw [notBare] at bare
      cases bare
    | itself | none => trivial

/-- A guest path under a mount resolves inside the mount's host root exactly when it is
confined; every path is on a host other than Windows, and on Windows every path without a
drive in front of its remainder behind a host root that is not a whole drive. -/
theorem resolves_inside_iff_confined (host : Host) (roots : BuiltInRoots)
    (mounts : GuestMounts host) (guestPath : List Char) :
    ((∀ root hostPath, mountRoot host roots mounts.mounts guestPath = some root →
        resolveGuestPath host roots mounts.mounts guestPath = .ok hostPath →
        host.Contains (host.place root) (host.place hostPath)) ↔
      Confined host roots mounts.mounts guestPath) ∧
    (host.windows = false ∨ Plain host roots mounts.mounts guestPath →
      Confined host roots mounts.mounts guestPath) := by
  refine ⟨?_, confined_of_plain⟩
  by_cases blank : guestPath.all host.isWhiteSpace
  · simp [mountRoot, Confined, blank]
  · have notBlank : guestPath.all host.isWhiteSpace = false := by
      simpa using blank
    simp only [resolveGuestPath_eq_ok_iff notBlank]
    unfold mountRoot Confined
    rw [if_neg blank]
    simp only [notBlank, forall_const]
    cases registered : registeredMount host mounts.mounts guestPath with
    | some found =>
      obtain ⟨mount, relativePath⟩ := found
      simp only [Option.some.injEq]
      rcases tryResolve_cases registered with ⟨fails, resolved⟩ |
        ⟨-, accepts, candidate, resolved, -, contained⟩ | ⟨notFails, refuses, resolved⟩
      · simp [resolved, fails]
      · refine iff_of_true ?_ (.inr (.inl accepts))
        rintro root hostPath rfl (isPath | ⟨refused, -⟩)
        · obtain rfl := Option.some.inj (Except.ok.inj (resolved.symm.trans isPath))
          exact contained
        · cases resolved.symm.trans refused
      · constructor
        · intro inside
          rw [← place_hostPath]
          exact .inr (.inr (inside _ _ rfl (.inr ⟨resolved, rfl⟩)))
        · rintro (fails | accepts | contained) root hostPath rfl (isPath | ⟨-, rfl⟩)
          · exact absurd fails notFails
          · exact absurd fails notFails
          · exact absurd accepts refuses
          · exact absurd accepts refuses
          · cases resolved.symm.trans isPath
          · rw [place_hostPath]
            exact contained
    | none =>
      have refused : tryResolveRegisteredGuestMount host mounts.mounts guestPath = .ok none := by
        simp [tryResolveRegisteredGuestMount, registered]
      simp only [refused, Except.ok.injEq, reduceCtorEq, false_or, true_and]
      have leads := place_hostPath host roots guestPath
      unfold builtInPlace at leads
      cases isMount : builtInMount host roots guestPath with
      | under root relativePath =>
        simp only [isMount, Option.some.injEq] at leads ⊢
        rw [← contains_placeUnder_iff, ← leads]
        constructor
        · intro inside
          exact inside root _ rfl rfl
        · rintro inside _ _ rfl rfl
          exact inside
      | itself root =>
        simp only [isMount, Option.some.injEq, iff_true] at leads ⊢
        rintro _ _ rfl rfl
        exact contains_self _
      | none => simp

end Resolution

def windowsHost : Host := .literal true []

def windowsRoots : BuiltInRoots where
  devlogApp := "D:\\devlog".toList
  temp0 := "D:\\temp".toList
  download0 := "D:\\download".toList
  hostapp := "D:\\hostapp".toList
  app0 := none

/-- Parent segments with either separator stay in `temp0`. -/
theorem resolves_inside_iff_confined_parents :
    windowsHost.Contains (windowsHost.place "D:\\temp".toList)
      (windowsHost.place "D:\\temp\\x".toList) :=
  (resolves_inside_iff_confined windowsHost windowsRoots GuestMounts.empty
    "/temp0/..\\a/../../x".toList).1.mpr
    ((resolves_inside_iff_confined windowsHost windowsRoots GuestMounts.empty
      "/temp0/..\\a/../../x".toList).2 (.inr ⟨by decide +kernel, by decide +kernel⟩))
    _ _ (by decide +kernel) (by decide +kernel)

/-- On Windows, `/temp0/C:/x` leads to `C:\x`, wherever `temp0` is. -/
theorem drive_segment_leaves_mount :
    ¬ ∀ (host : Host) (roots : BuiltInRoots) (mounts : GuestMounts host)
      (guestPath root hostPath : List Char),
      mountRoot host roots mounts.mounts guestPath = some root →
      resolveGuestPath host roots mounts.mounts guestPath = .ok hostPath →
      host.Contains (host.place root) (host.place hostPath) := by
  intro always
  have inside := always windowsHost windowsRoots GuestMounts.empty "/temp0/C:/x".toList
    "D:\\temp".toList "C:\\x".toList (by decide +kernel) (by decide +kernel)
  revert inside
  decide +kernel

end GuestPaths
end SharpEmu
