import SharpEmu.GuestPathsConfinement

/-!
# The read-only check of guest paths

Calls that change files ask first whether the guest path is in the read-only
application root.  The check looks for `/app0` at the front of the text, while
resolution has other rules that lead into the same host directory.
-/

namespace SharpEmu
namespace GuestPaths

section ReadOnly

variable (host : Host)

/-- `writableApp0` is the setting that makes the application root writable. -/
def isReadOnlyGuestMutationPath (writableApp0 : Bool) (guestPath : List Char) :
    Bool :=
  if writableApp0 then false
  else
    match normalizeGuestStatCachePath guestPath with
    | none => false
    | some normalized =>
        host.equalsIgnoreCase normalized "/app0".toList ||
          host.startsWithIgnoreCase normalized "/app0/".toList

def InApp0 (roots : BuiltInRoots) (path : Place) : Prop :=
  ∃ root, roots.app0 = some root ∧ host.Contains (host.place root) path

/-- With its back-slashes turned, the path is `app0`, in any letter case, behind at most
one slash and in front of a slash or the end. -/
def SpelledApp0 (guestPath : List Char) : Prop :=
  ∃ front name rest, guestPath.map (fun letter => if letter = '\\' then '/' else letter) =
      front ++ name ++ rest ∧
    (front = [] ∨ front = ['/']) ∧ host.equalsIgnoreCase name "app0".toList = true ∧
    (rest = [] ∨ rest.head? = some '/')

/-- The remainder of a path behind some root leads out of the application root: it does
not stay under that root, or the root and the remainder lie elsewhere. -/
def RemainderElsewhere (roots : BuiltInRoots) (root : List Char)
    (parts : List (List Char)) : Prop :=
  if roots.app0 = some root then ¬ StaysUnder host root parts
  else ¬ InApp0 host roots (host.placeUnder root parts)

def BuiltInElsewhere (roots : BuiltInRoots) (guestPath : List Char) : Prop :=
  match builtInMount host roots guestPath with
  | .under root relativePath =>
      RemainderElsewhere host roots root (mountSegments relativePath)
  | .itself root => ¬ InApp0 host roots (host.place root)
  | .none => ¬ InApp0 host roots (host.place guestPath)

/-- The rule that takes the path leads elsewhere: a registered mount that accepts it, the
built-in prefixes when none does, or no rule at all for a blank path. -/
def LeadsElsewhere (roots : BuiltInRoots) (mounts : List RegisteredMount)
    (guestPath : List Char) : Prop :=
  if guestPath.all host.isWhiteSpace then ¬ InApp0 host roots (host.place guestPath)
  else
    match registeredMount host mounts guestPath with
    | some (mount, relativePath) =>
        let parts := mountSegments relativePath
        Fails host mount.hostRoot parts ∨ (Accepts host mount.hostRoot parts ∧
            RemainderElsewhere host roots mount.hostRoot parts) ∨
          (¬ Accepts host mount.hostRoot parts ∧ BuiltInElsewhere host roots guestPath)
    | none => BuiltInElsewhere host roots guestPath

/-- A rule with the application root as its host root takes the path, whose remainder has
no drive in front, behind a root that is not a bare drive. -/
def TakenByApp0 (roots : BuiltInRoots) (mounts : List RegisteredMount)
    (guestPath : List Char) : Prop :=
  guestPath.all host.isWhiteSpace = false ∧ registeredMount host mounts guestPath = none ∧
    ∃ root, roots.app0 = some root ∧
      ((∃ relativePath, builtInMount host roots guestPath = .under root relativePath ∧
          host.driveInFront (mountSegments relativePath) = none ∧
          host.isBareDrive root = false) ∨
        builtInMount host roots guestPath = .itself root)

end ReadOnly

/-! ## The spellings that are reported -/

section Spellings

variable {host : Host} {guestPath : List Char}

theorem upper_slash_eq (host : Host) : host.upper '/' = '/' := by
  have same := host.upper_slash '/'
  rwa [beq_self_eq_true, beq_iff_eq] at same

theorem eq_slash_of_upper {letter : Char} (same : host.upper letter = '/') : letter = '/' := by
  have isSlash := host.upper_slash letter
  rw [same, beq_self_eq_true] at isSlash
  exact beq_iff_eq.mp isSlash.symm

theorem name_not_slash {name : List Char}
    (isName : host.equalsIgnoreCase name "app0".toList = true) :
    ∀ letter ∈ name, letter ≠ '/' := by
  rintro letter member rfl
  have upperMember : host.upper '/' ∈ name.map host.upper :=
    List.mem_map_of_mem member
  rw [beq_iff_eq.mp isName, upper_slash_eq] at upperMember
  obtain ⟨other, isOther, isSlash⟩ := List.mem_map.mp upperMember
  rw [eq_slash_of_upper isSlash] at isOther
  revert isOther
  decide

/-- A text behind a slash is `/app0`, or starts with `/app0/`, when it spells it. -/
theorem compared_iff (text : List Char) : (host.equalsIgnoreCase ('/' :: text) "/app0".toList ||
        host.startsWithIgnoreCase ('/' :: text) "/app0/".toList) = true ↔
      ∃ name rest, text = name ++ rest ∧ host.equalsIgnoreCase name "app0".toList = true ∧
        (rest = [] ∨ rest.head? = some '/') := by
  have whole : "/app0".toList = '/' :: "app0".toList := rfl
  have opened : "/app0/".toList = '/' :: ("app0".toList ++ ['/']) := rfl
  rw [Bool.or_eq_true, whole, opened]
  simp only [Host.equalsIgnoreCase, Host.startsWithIgnoreCase, List.map_cons,
    List.map_append, List.map_nil, beq_iff_eq, List.cons.injEq, true_and,
    List.isPrefixOf_iff_prefix, List.cons_prefix_cons, upper_slash_eq]
  constructor
  · rintro (same | ⟨rest, isText⟩)
    · exact ⟨text, [], (List.append_nil text).symm, same, .inl rfl⟩
    · rw [List.append_assoc] at isText
      obtain ⟨name, behind, rfl, isName, isBehind⟩ := List.map_eq_append_iff.mp isText.symm
      refine ⟨name, behind, rfl, isName, .inr ?_⟩
      cases behind with
      | nil => cases isBehind
      | cons first more =>
        rw [List.map_cons, List.singleton_append] at isBehind
        rw [eq_slash_of_upper (List.cons.inj isBehind).1]
        rfl
  · rintro ⟨name, rest, rfl, isName, ends⟩
    cases rest with
    | nil =>
      rw [List.append_nil]
      exact .inl isName
    | cons first more =>
      obtain rfl : first = '/' := by simpa using ends
      refine .inr ⟨more.map host.upper, ?_⟩
      rw [List.map_append, isName, List.map_cons, upper_slash_eq, List.append_assoc,
        List.singleton_append]

theorem rdropWhile_append {name : List Char} (someName : name ≠ [])
    (plain : ∀ letter ∈ name, letter ≠ '/') (front rest : List Char) :
    (front ++ name ++ rest).rdropWhile (· == '/') =
      front ++ name ++ rest.rdropWhile (· == '/') := by
  have stops : (front ++ name).reverse.dropWhile (· == '/') = (front ++ name).reverse := by
    obtain ⟨before, last, rfl⟩ : ∃ before last, name = before ++ [last] :=
      ⟨_, _, (List.dropLast_append_getLast someName).symm⟩
    have lastPlain := plain last (by simp)
    simp [lastPlain]
  unfold List.rdropWhile
  rw [List.reverse_append, List.dropWhile_append]
  split
  · rename_i empty
    rw [stops, List.reverse_reverse, List.isEmpty_iff.mp empty, List.reverse_nil, List.append_nil]
  · rw [List.reverse_append, List.reverse_reverse]

theorem isReadOnlyGuestMutationPath_iff (host : Host) (guestPath : List Char) :
    isReadOnlyGuestMutationPath host false guestPath = true ↔
      SpelledApp0 host guestPath := by
  unfold isReadOnlyGuestMutationPath normalizeGuestStatCachePath SpelledApp0
  generalize guestPath.map (fun letter => if letter = '\\' then '/' else letter) = turned
  constructor
  · intro reported
    rw [if_neg Bool.false_ne_true] at reported
    dsimp only at reported
    have areSlashes : ∀ letter ∈ turned.rtakeWhile (· == '/'), letter = '/' := by
      intro letter member
      have isSlash := List.mem_rtakeWhile_imp member
      exact beq_iff_eq.mp isSlash
    have isTurned : turned.rdropWhile (· == '/') ++ turned.rtakeWhile (· == '/') = turned :=
      List.rdropWhile_append_rtakeWhile
    generalize turned.rdropWhile (· == '/') = trimmed at reported isTurned
    generalize turned.rtakeWhile (· == '/') = slashes at areSlashes isTurned
    obtain ⟨front, text, isTrimmed, isFront, compared⟩ : ∃ front text,
        trimmed = front ++ text ∧ (front = [] ∨ front = ['/']) ∧
          (host.equalsIgnoreCase ('/' :: text) "/app0".toList ||
            host.startsWithIgnoreCase ('/' :: text) "/app0/".toList) = true := by
      cases trimmed with
      | nil => cases reported
      | cons first more =>
        rw [if_neg (List.cons_ne_nil _ _)] at reported
        by_cases isSlash : first = '/'
        · subst isSlash
          exact ⟨['/'], more, rfl, .inr rfl, reported⟩
        · rw [if_neg (by simpa using isSlash)] at reported
          exact ⟨[], first :: more, rfl, .inl rfl, reported⟩
    obtain ⟨name, rest, rfl, isName, ends⟩ := (compared_iff text).mp compared
    refine ⟨front, name, rest ++ slashes, ?_, isFront, isName, ?_⟩
    · rw [← isTurned, isTrimmed]
      simp only [List.append_assoc]
    · rcases ends with rfl | opens
      · cases slashes with
        | nil => exact .inl rfl
        | cons first more => exact .inr (congrArg some (areSlashes first List.mem_cons_self))
      · cases rest with
        | nil => cases opens
        | cons first more => exact .inr opens
  · rintro ⟨front, name, rest, rfl, isFront, isName, ends⟩
    have plain := name_not_slash isName
    have someName : name ≠ [] := by
      rintro rfl
      cases beq_iff_eq.mp isName
    rw [@rdropWhile_append name someName plain front rest]
    have trimmedEnds : rest.rdropWhile (· == '/') = [] ∨
        (rest.rdropWhile (· == '/')).head? = some '/' := by
      obtain ⟨behind, isRest⟩ := List.rdropWhile_prefix (fun letter => letter == '/') (l := rest)
      cases trimmed : rest.rdropWhile (· == '/') with
      | nil => exact .inl rfl
      | cons first more =>
        rw [trimmed] at isRest
        rw [← isRest] at ends
        rcases ends with none | opens
        · cases none
        · exact .inr opens
    generalize rest.rdropWhile (· == '/') = behind at trimmedEnds
    have compared := (@compared_iff host (name ++ behind)).mpr
      ⟨name, behind, rfl, isName, trimmedEnds⟩
    obtain ⟨first, more, rfl⟩ := List.exists_cons_of_ne_nil someName
    have firstPlain := plain first List.mem_cons_self
    rcases isFront with rfl | rfl
    · simpa [firstPlain] using compared
    · simpa using compared

end Spellings

section Agreement

variable {host : Host} {roots : BuiltInRoots} {guestPath : List Char}

theorem not_remainderElsewhere_iff {root : List Char} {parts : List (List Char)} :
    ¬ RemainderElsewhere host roots root parts ↔
      InApp0 host roots (host.placeUnder root parts) := by
  unfold RemainderElsewhere
  split
  · rename_i isApp0
    rw [not_not, ← contains_placeUnder_iff]
    constructor
    · intro inside
      exact ⟨root, isApp0, inside⟩
    · rintro ⟨other, isOther, inside⟩
      rw [isApp0] at isOther
      cases isOther
      exact inside
  · exact not_not

theorem not_builtInElsewhere_iff : ¬ BuiltInElsewhere host roots guestPath ↔ InApp0 host roots
        (host.place ((builtInMount host roots guestPath).hostPath host guestPath)) := by
  rw [place_hostPath]
  unfold BuiltInElsewhere builtInPlace
  cases builtInMount host roots guestPath with
  | under root relativePath => exact not_remainderElsewhere_iff
  | itself | none => exact not_not

theorem resolves_inApp0_iff (host : Host) (roots : BuiltInRoots)
    (mounts : GuestMounts host) (guestPath : List Char) :
    (∃ hostPath, resolveGuestPath host roots mounts.mounts guestPath = .ok hostPath ∧
        InApp0 host roots (host.place hostPath)) ↔
      ¬ LeadsElsewhere host roots mounts.mounts guestPath := by
  unfold LeadsElsewhere
  by_cases blank : guestPath.all host.isWhiteSpace
  · unfold resolveGuestPath
    rw [if_pos blank, if_pos blank]
    simp
  rw [if_neg blank]
  simp only [resolveGuestPath_eq_ok_iff (by simpa using blank)]
  cases registered : registeredMount host mounts.mounts guestPath with
  | none =>
    have refused : tryResolveRegisteredGuestMount host mounts.mounts guestPath = .ok none := by
      simp [tryResolveRegisteredGuestMount, registered]
    rw [not_builtInElsewhere_iff]
    simp [refused]
  | some found =>
    obtain ⟨mount, relativePath⟩ := found
    dsimp only
    rcases tryResolve_cases registered with ⟨fails, resolved⟩ |
      ⟨notFails, accepts, candidate, resolved, leads, -⟩ | ⟨notFails, refuses, resolved⟩
    · simp [resolved, fails]
    · rw [show (Fails host mount.hostRoot (mountSegments relativePath) ∨ _ ∨ _) ↔ _ from
        or_iff_right notFails]
      simp only [resolved, accepts, true_and, not_true_eq_false, false_and, or_false,
        not_remainderElsewhere_iff, ← leads]
      simp
    · rw [show (Fails host mount.hostRoot (mountSegments relativePath) ∨ _ ∨ _) ↔ _ from
        or_iff_right notFails]
      simp only [resolved, refuses, false_and, false_or, not_false_eq_true, true_and,
        not_builtInElsewhere_iff]
      simp

theorem not_leadsElsewhere_of_takenByApp0 {mounts : List RegisteredMount}
    (taken : TakenByApp0 host roots mounts guestPath) :
    ¬ LeadsElsewhere host roots mounts guestPath := by
  obtain ⟨notBlank, unregistered, root, isApp0, rule⟩ := taken
  unfold LeadsElsewhere BuiltInElsewhere
  rw [if_neg (by simp [notBlank]), unregistered]
  rcases rule with ⟨relativePath, isRule, noDrive, notBare⟩ | isRule
  · simp only [isRule, RemainderElsewhere, if_pos isApp0, StaysUnder, noDrive, notBare]
    simp
  · simp only [isRule, not_not]
    exact ⟨root, isApp0, contains_self _⟩

/-- A path is reported when `app0` is spelled in it.  So a path that resolves into the
application root is reported exactly when it is spelled so or its rule leads elsewhere;
behind the root's own rules, exactly when it is spelled so. -/
theorem mutations_reported_iff (host : Host) (roots : BuiltInRoots)
    (mounts : GuestMounts host) (guestPath : List Char) :
    (isReadOnlyGuestMutationPath host false guestPath = true ↔ SpelledApp0 host guestPath) ∧
    ((∀ hostPath, resolveGuestPath host roots mounts.mounts guestPath = .ok hostPath →
        InApp0 host roots (host.place hostPath) →
        isReadOnlyGuestMutationPath host false guestPath = true) ↔
      SpelledApp0 host guestPath ∨ LeadsElsewhere host roots mounts.mounts guestPath) ∧
    (TakenByApp0 host roots mounts.mounts guestPath →
      ((∀ hostPath, resolveGuestPath host roots mounts.mounts guestPath = .ok hostPath →
          InApp0 host roots (host.place hostPath) →
          isReadOnlyGuestMutationPath host false guestPath = true) ↔
        SpelledApp0 host guestPath)) := by
  have reported_iff : (∀ hostPath,
        resolveGuestPath host roots mounts.mounts guestPath = .ok hostPath →
        InApp0 host roots (host.place hostPath) →
        isReadOnlyGuestMutationPath host false guestPath = true) ↔
      SpelledApp0 host guestPath ∨ LeadsElsewhere host roots mounts.mounts guestPath := by
    rw [isReadOnlyGuestMutationPath_iff]
    constructor
    · intro reported
      by_cases elsewhere : LeadsElsewhere host roots mounts.mounts guestPath
      · exact .inr elsewhere
      · obtain ⟨hostPath, resolved, inside⟩ :=
          (resolves_inApp0_iff host roots mounts guestPath).mpr elsewhere
        exact .inl (reported hostPath resolved inside)
    · rintro (spelled | elsewhere) hostPath resolved inside
      · exact spelled
      · exact absurd elsewhere
          ((resolves_inApp0_iff host roots mounts guestPath).mp ⟨hostPath, resolved, inside⟩)
  refine ⟨isReadOnlyGuestMutationPath_iff host guestPath, reported_iff, ?_⟩
  intro taken
  rw [reported_iff]
  exact or_iff_left (not_leadsElsewhere_of_takenByApp0 taken)

end Agreement

def posix : Host := .literal false []

def posixRoots : BuiltInRoots where
  devlogApp := "/logs".toList
  temp0 := "/temp".toList
  download0 := "/download".toList
  hostapp := "/hostapp".toList
  app0 := some "/game".toList

/-- A relative path is the application root's, and is reported when it spells `app0`. -/
theorem mutations_reported_iff_relative :
    (∀ hostPath, resolveGuestPath posix posixRoots [] "a/../app0x/save.dat".toList =
        .ok hostPath → InApp0 posix posixRoots (posix.place hostPath) →
      isReadOnlyGuestMutationPath posix false "a/../app0x/save.dat".toList = true) ↔
      SpelledApp0 posix "a/../app0x/save.dat".toList :=
  (mutations_reported_iff posix posixRoots GuestMounts.empty "a/../app0x/save.dat".toList).2.2
    ⟨by decide +kernel, by decide +kernel, "/game".toList, rfl,
      .inl ⟨"a/../app0x/save.dat".toList, by decide +kernel, by decide +kernel,
        by decide +kernel⟩⟩

/-- The relative path `save.dat` resolves into the application root unreported. -/
theorem relative_path_unreported :
    ¬ ∀ (host : Host) (roots : BuiltInRoots) (mounts : GuestMounts host)
      (guestPath hostPath : List Char),
      resolveGuestPath host roots mounts.mounts guestPath = .ok hostPath →
      InApp0 host roots (host.place hostPath) →
      isReadOnlyGuestMutationPath host false guestPath = true := by
  intro always
  have reported := always posix posixRoots GuestMounts.empty "save.dat".toList
    "/game/save.dat".toList (by decide +kernel)
    ⟨"/game".toList, rfl, by decide +kernel⟩
  revert reported
  decide +kernel

end GuestPaths
end SharpEmu
