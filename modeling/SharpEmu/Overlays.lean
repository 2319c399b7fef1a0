import Mathlib.Data.List.Basic
import Mathlib.Tactic.Common

/-!
# Contents overlaid by patches

A patch gives some addresses a value.  Patches laid over contents one after the
other hide what lies below them, so that all of them can be read back exactly
when no two of them differ at an address that both cover.
-/

namespace SharpEmu.Overlays

abbrev Contents (Address Value : Type) := Address → Option Value

variable {Address Value : Type}

def overlay (patch contents : Contents Address Value) :
    Contents Address Value :=
  fun address => (patch address).or (contents address)

def overlayAll : List (Contents Address Value) → Contents Address Value → Contents Address Value
  | [], contents => contents
  | patch :: rest, contents => overlayAll rest (overlay patch contents)

/-- Everything the patch gives can be read back from the contents. -/
def Held (patch contents : Contents Address Value) : Prop :=
  ∀ address value, patch address = some value → contents address = some value

/-- The patches do not differ where both give a value. -/
def Agree (first second : Contents Address Value) : Prop :=
  ∀ address one other, first address = some one → second address = some other → one = other

theorem held_overlay (patch contents : Contents Address Value) :
    Held patch (overlay patch contents) := by
  intro address value given
  rw [overlay, given, Option.some_or]

variable {patch contents : Contents Address Value}

theorem Held.overlay {upper : Contents Address Value}
    (held : Held patch contents) (agree : Agree patch upper) :
    Held patch (overlay upper contents) := by
  intro address value given
  unfold Overlays.overlay
  cases hidden : upper address with
  | none => rw [Option.none_or, held address value given]
  | some other => rw [Option.some_or, agree address value other given hidden]

variable {patches : List (Contents Address Value)}

theorem Held.overlayAll (held : Held patch contents)
    (agree : ∀ upper ∈ patches, Agree patch upper) :
    Held patch (overlayAll patches contents) := by
  induction patches generalizing contents with
  | nil => exact held
  | cons upper rest ih =>
    exact ih (held.overlay (agree upper List.mem_cons_self)) (List.forall_mem_cons.mp agree).2

theorem Held.agree {first second : Contents Address Value}
    (held : Held first contents) (otherHeld : Held second contents) :
    Agree first second := by
  intro address one other given alsoGiven
  have isOne := held address one given
  rw [otherHeld address other alsoGiven] at isOne
  exact (Option.some.inj isOne).symm

theorem held_overlayAll_iff (patches : List (Contents Address Value))
    (contents : Contents Address Value) :
    (∀ patch ∈ patches, Held patch (overlayAll patches contents)) ↔ patches.Pairwise Agree := by
  constructor
  · intro held
    exact List.pairwise_of_forall_mem_list fun _ member _ otherMember =>
      (held _ member).agree (held _ otherMember)
  · intro agree
    induction patches generalizing contents with
    | nil => simp
    | cons first rest ih =>
      obtain ⟨firstAgrees, restAgree⟩ := List.pairwise_cons.mp agree
      intro patch member
      rcases List.mem_cons.mp member with rfl | isLater
      · exact (held_overlay patch contents).overlayAll firstAgrees
      · exact ih _ restAgree patch isLater

theorem overlayAll_congr {other : Contents Address Value} {address : Address}
    (same : (∃ patch ∈ patches, (patch address).isSome) ∨ contents address = other address) :
    overlayAll patches contents address = overlayAll patches other address := by
  induction patches generalizing contents other with
  | nil => exact same.resolve_left (by simp)
  | cons upper rest ih =>
    apply ih
    rcases same with ⟨patch, isPatch, covers⟩ | same
    · rcases List.mem_cons.mp isPatch with rfl | isLater
      · right
        unfold Overlays.overlay
        rw [Option.or_of_isSome covers, Option.or_of_isSome covers]
      · exact .inl ⟨patch, isLater, covers⟩
    · exact .inr (congrArg (upper address).or same)

end SharpEmu.Overlays
