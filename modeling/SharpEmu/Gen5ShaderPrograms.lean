import SharpEmu.Gen5ShaderDecoder
import SharpEmu.MachineWords
import Mathlib.Data.UInt

/-!
# The shape of decoded shader programs

A decoded program is one contiguous run of instructions from the entry to the
first `s_endpgm`.  The guest's control flow is followed on guest memory, not on
the decoded list, so that code which the sweep does not see can be talked about.
-/

namespace SharpEmu
namespace Gen5Shader

/-! ## Branches in the source -/

def startsWith (text start : String) : Bool :=
  start.toList.isPrefixOf text.toList

def isBranch (opcode : String) : Bool :=
  opcode == "SBranch" || startsWith opcode "SCbranch"

def tryGetBranchTargetPc (instruction : Gen5ShaderInstruction) : Option UInt32 :=
  match instruction.encoding, instruction.words with
  | .sopp, first :: _ =>
      let offset : Int := (first.toNat % 2 ^ 16 : Int).bmod (2 ^ 16)
      let nextPc : Int := instruction.pc.toNat + 4 * instruction.words.length
      let target := nextPc + offset * 4
      if target < 0 ∨ target > 0xFFFFFFFF then none
      else some (.ofNat target.toNat)
  | _, _ => none

def isExitBranchTarget (instructions : List Gen5ShaderInstruction) (targetPc : UInt32) : Bool :=
  match instructions.getLast? with
  | none => false
  | some last => last.endPc ≤ targetPc

/-! ## The sweep -/

/-- A decoding that succeeds gives one to five words. -/
def Sized (result : Except DecodeError Decoded) : Prop :=
  ∀ decoded, result = .ok decoded → 1 ≤ decoded.sizeDwords.toNat ∧ decoded.sizeDwords.toNat ≤ 5

section Sizes

variable {condition : Prop} [Decidable condition]

theorem sized_ite {first second : Except DecodeError Decoded}
    (firstSized : Sized first) (secondSized : Sized second) :
    Sized (if condition then first else second) := by
  split
  · exact firstSized
  · exact secondSized

theorem sized_ok {decoded : Decoded} (positive : 1 ≤ decoded.sizeDwords.toNat)
    (small : decoded.sizeDwords.toNat ≤ 5) : Sized (.ok decoded) := by
  intro result same
  cases same
  exact ⟨positive, small⟩

variable {encoding : Gen5ShaderEncoding} {name : String} {opcode word : UInt32}

theorem sized_finishDecode {size : UInt32} (positive : 1 ≤ size.toNat) (small : size.toNat ≤ 5) :
    Sized (finishDecode encoding name size opcode word) := by
  unfold finishDecode
  apply sized_ite
  · rintro _ impossible
    cases impossible
  · exact sized_ok positive small

variable {first second : UInt32}

theorem toNat_choice {low high : ℕ} (firstBetween : low ≤ first.toNat ∧ first.toNat ≤ high)
    (secondBetween : low ≤ second.toNat ∧ second.toNat ≤ high) :
    low ≤ (if condition then first else second).toNat ∧
      (if condition then first else second).toNat ≤ high := by
  split
  · exact firstBetween
  · exact secondBetween

/-- The encodings whose instructions take one of two lengths. -/
theorem sized_choice (firstSized : 1 ≤ first.toNat ∧ first.toNat ≤ 5)
    (secondSized : 1 ≤ second.toNat ∧ second.toNat ≤ 5) :
    Sized (finishDecode encoding name (if condition then first else second) opcode word) :=
  sized_finishDecode (toNat_choice firstSized secondSized).1 (toNat_choice firstSized secondSized).2

end Sizes

theorem sized_decodeSop (word : UInt32) : Sized (decodeSop word) := by
  unfold decodeSop
  refine sized_ite ?_ (sized_ite ?_ (sized_ite ?_ (sized_ite ?_ ?_)))
  · unfold decodeSop1
    apply sized_finishDecode
    all_goals
      split
      all_goals decide
  · exact sized_choice (by decide) (by decide)
  · exact sized_finishDecode (by decide) (by decide)
  · exact sized_finishDecode (by decide) (by decide)
  · exact sized_choice (by decide) (by decide)

theorem sized_decodeVop2 (word : UInt32) : Sized (decodeVop2 word) := by
  unfold decodeVop2
  refine sized_ite ?_ (sized_ite ?_ ?_)
  · exact sized_choice (by decide) (by decide)
  · exact sized_choice (by decide) (by decide)
  · exact sized_choice (by decide) (by decide)

theorem sized_decodeMimg (word : UInt32) : Sized (decodeMimg word) := by
  have low : ((word >>> 1) &&& 0x3).toNat ≤ 3 := by
    rw [UInt32.toNat_and]
    exact Nat.and_le_right
  have sum : ((2 : UInt32) + ((word >>> 1) &&& 0x3)).toNat = 2 + ((word >>> 1) &&& 0x3).toNat := by
    rw [UInt32.toNat_add]
    exact Nat.mod_eq_of_lt (by
      have two : (2 : UInt32).toNat = 2 := rfl
      omega)
  unfold decodeMimg
  apply sized_finishDecode
  · rw [sum]
    omega
  · rw [sum]
    omega

variable {pc : UInt32}

theorem sized_withExtraWord {words : GuestWords} {baseAddress : UInt64}
    {encoding : Gen5ShaderEncoding} {decode : UInt32 → Decoded}
    (positive : ∀ extra, 1 ≤ (decode extra).sizeDwords.toNat)
    (small : ∀ extra, (decode extra).sizeDwords.toNat ≤ 5) :
    Sized (withExtraWord words baseAddress pc encoding decode) := by
  unfold withExtraWord
  split
  · rintro _ impossible
    cases impossible
  · exact sized_ok (positive _) (small _)

theorem sized_decodeRaw2 (encoding : Gen5ShaderEncoding) (word : UInt32)
    (rawName : String) : Sized (.ok (decodeRaw2 encoding word rawName)) := by
  apply sized_ok
  · change 1 ≤ (2 : UInt32).toNat
    decide
  · change (2 : UInt32).toNat ≤ 5
    decide

theorem vop3Size_between (extra : UInt32) :
    1 ≤ (vop3Size extra).toNat ∧ (vop3Size extra).toNat ≤ 5 :=
  toNat_choice (by decide) (by decide)

theorem bufferSize_between (extra : UInt32) :
    1 ≤ (bufferSize extra).toNat ∧ (bufferSize extra).toNat ≤ 5 :=
  toNat_choice (by decide) (by decide)

theorem sized_tryDecodeInstruction (words : GuestWords) (baseAddress : UInt64)
    (pc word : UInt32) : Sized (tryDecodeInstruction words baseAddress pc word) := by
  unfold tryDecodeInstruction
  apply sized_ite (sized_decodeVop2 word)
  apply sized_ite (sized_choice (by decide) (by decide))
  apply sized_ite (sized_decodeSop word)
  apply sized_ite (sized_withExtraWord (fun extra => (vop3Size_between extra).1)
    fun extra => (vop3Size_between extra).2)
  -- the encodings with a six-bit prefix, in the order of the source's switch
  apply sized_ite (sized_finishDecode (by decide) (by decide))
  apply sized_ite (sized_finishDecode (by decide) (by decide))
  apply sized_ite (sized_withExtraWord (fun extra => (vop3Size_between extra).1)
    fun extra => (vop3Size_between extra).2)
  apply sized_ite (sized_finishDecode (by decide) (by decide))
  apply sized_ite (sized_finishDecode (by decide) (by decide))
  apply sized_ite (sized_withExtraWord (fun extra => (bufferSize_between extra).1)
    fun extra => (bufferSize_between extra).2)
  apply sized_ite (sized_withExtraWord (fun extra => (bufferSize_between extra).1)
    fun extra => (bufferSize_between extra).2)
  apply sized_ite (sized_decodeMimg word)
  apply sized_ite (sized_finishDecode (by decide) (by decide))
  apply sized_ite (sized_ok (by decide) (by decide))
  apply sized_ite (sized_decodeRaw2 .vop3p word "Vop3p")
  rintro _ impossible
  cases impossible

theorem length_readWords {words : GuestWords} {address : UInt64} :
    ∀ {count first : ℕ} {rest : List UInt32},
      readWords words address pc first count = .ok rest → rest.length = count
  | 0, _, _, isRead => by
      cases isRead
      rfl
  | count + 1, first, rest, isRead => by
      unfold readWords at isRead
      split at isRead
      · cases isRead
      · obtain ⟨tail, isTail, isRest⟩ := except_bind_eq_ok.mp isRead
        cases isRest
        rw [List.length_cons, length_readWords isTail]

theorem decodeAt_spec {words : GuestWords} {address : UInt64} {instruction : Gen5ShaderInstruction}
    (decodes : decodeAt words address pc = .ok instruction) :
    instruction.pc = pc ∧ 1 ≤ instruction.words.length ∧ instruction.words.length ≤ 5 := by
  unfold decodeAt at decodes
  split at decodes
  · cases decodes
  · rename_i word _
    obtain ⟨decoded, isDecoded, decodes⟩ := except_bind_eq_ok.mp decodes
    obtain ⟨rest, isRest, decodes⟩ := except_bind_eq_ok.mp decodes
    obtain ⟨positive, small⟩ :=
      sized_tryDecodeInstruction words address pc word decoded isDecoded
    cases decodes
    have restLength := length_readWords isRest
    simp only [List.length_cons]
    exact ⟨trivial, by omega, by omega⟩

/-- The instructions of a sweep: each where the one before it ends, all decoded
from memory, the last of them and no other an `s_endpgm`. -/
inductive Swept (words : GuestWords) (address : UInt64) :
    ℕ → List Gen5ShaderInstruction → Prop
  | last {instruction : Gen5ShaderInstruction} :
      decodeAt words address instruction.pc = .ok instruction →
      instruction.endPc.toNat =
        instruction.pc.toNat + 4 * instruction.words.length →
      instruction.opcode = "SEndpgm" →
      Swept words address instruction.pc.toNat [instruction]
  | more {instruction : Gen5ShaderInstruction}
      {rest : List Gen5ShaderInstruction} :
      decodeAt words address instruction.pc = .ok instruction →
      instruction.endPc.toNat =
        instruction.pc.toNat + 4 * instruction.words.length →
      instruction.opcode ≠ "SEndpgm" →
      Swept words address instruction.endPc.toNat rest →
      Swept words address instruction.pc.toNat (instruction :: rest)

theorem swept_of_decodeFrom {words : GuestWords} {address : UInt64} {turns : ℕ}
    {program : List Gen5ShaderInstruction}
    (decodes : decodeFrom words address turns pc = .ok program)
    (room : pc.toNat + 20 * turns < 2 ^ 32) :
    Swept words address pc.toNat program := by
  induction turns generalizing pc program with
  | zero => cases decodes
  | succ turns ih =>
    rw [decodeFrom, except_bind_eq_ok] at decodes
    obtain ⟨instruction, isInstruction, decodes⟩ := decodes
    obtain ⟨samePc, positive, small⟩ := decodeAt_spec isInstruction
    have isEnd : instruction.endPc.toNat = instruction.pc.toNat + 4 * instruction.words.length := by
      unfold Gen5ShaderInstruction.endPc
      rw [UInt32.toNat_add, UInt32.toNat_ofNat', samePc]
      omega
    subst samePc
    split at decodes
    · rename_i isEndpgm
      cases decodes
      exact .last isInstruction isEnd isEndpgm
    · rename_i isOther
      obtain ⟨rest, isRest, decodes⟩ := except_bind_eq_ok.mp decodes
      cases decodes
      exact .more isInstruction isEnd isOther (ih isRest (by omega))

theorem swept_of_accepted {words : GuestWords} {address : UInt64}
    {program : List Gen5ShaderInstruction}
    (accepted : tryDecodeProgram words address = .ok program) :
    Swept words address 0 program := by
  unfold tryDecodeProgram at accepted
  split at accepted
  · cases accepted
  · exact swept_of_decodeFrom accepted (by decide)

section Sweeps

variable {words : GuestWords} {address : UInt64} {start : ℕ}
variable {program : List Gen5ShaderInstruction}

theorem Swept.decoded (swept : Swept words address start program) : ∀ instruction ∈ program,
      decodeAt words address instruction.pc = .ok instruction := by
  induction swept with
  | last decodes =>
    intro instruction member
    rw [List.mem_singleton.mp member]
    exact decodes
  | more decodes _ _ _ ih =>
    intro instruction member
    rcases List.mem_cons.mp member with rfl | later
    · exact decodes
    · exact ih instruction later

theorem Swept.head (swept : Swept words address start program) :
    ∃ first ∈ program, first.pc.toNat = start := by
  cases swept with
  | last => exact ⟨_, List.mem_singleton_self _, rfl⟩
  | more => exact ⟨_, List.mem_cons_self, rfl⟩

theorem Swept.next (swept : Swept words address start program) :
    ∀ instruction ∈ program, instruction.opcode ≠ "SEndpgm" →
      ∃ follower ∈ program, follower.pc = instruction.endPc := by
  induction swept with
  | last _ _ isEndpgm =>
    intro instruction member isOther
    rw [List.mem_singleton.mp member] at isOther
    exact absurd isEndpgm isOther
  | more _ _ _ swept ih =>
    intro instruction member isOther
    rcases List.mem_cons.mp member with rfl | later
    · obtain ⟨first, inRest, isFirst⟩ := swept.head
      exact ⟨first, List.mem_cons_of_mem _ inRest, UInt32.toNat_inj.mp isFirst⟩
    · obtain ⟨follower, inRest, isNext⟩ := ih instruction later isOther
      exact ⟨follower, List.mem_cons_of_mem _ inRest, isNext⟩

theorem Swept.eq_cons (swept : Swept words address start program) :
    ∃ first rest, program = first :: rest ∧ first.pc.toNat = start := by
  cases swept with
  | last => exact ⟨_, [], rfl, rfl⟩
  | more => exact ⟨_, _, rfl, rfl⟩

theorem Swept.chain (swept : Swept words address start program) :
    program.IsChain fun before after => after.pc = before.endPc := by
  induction swept with
  | last => exact List.IsChain.singleton _
  | more _ _ _ swept ih =>
    obtain ⟨first, rest, rfl, isFirst⟩ := swept.eq_cons
    rw [List.isChain_cons_cons]
    exact ⟨UInt32.toNat_inj.mp isFirst, ih⟩

theorem Swept.above (swept : Swept words address start program) :
    ∀ instruction ∈ program, start ≤ instruction.pc.toNat := by
  induction swept with
  | last =>
    intro instruction member
    rw [List.mem_singleton.mp member]
  | more _ isEnd _ _ ih =>
    intro instruction member
    rcases List.mem_cons.mp member with rfl | later
    · exact Nat.le_refl _
    · have behind := ih instruction later
      omega

theorem Swept.sorted (swept : Swept words address start program) :
    program.Pairwise fun before after => before.pc < after.pc := by
  induction swept with
  | last => exact List.pairwise_singleton _ _
  | more decodes isEnd _ swept ih =>
    rw [List.pairwise_cons]
    refine ⟨?_, ih⟩
    intro later member
    have behind := swept.above later member
    have positive := (decodeAt_spec decodes).2.1
    rw [UInt32.lt_iff_toNat_lt]
    omega

theorem Swept.eq_append (swept : Swept words address start program) :
    ∃ front last, program = front ++ [last] ∧ last.opcode = "SEndpgm" ∧
      ∀ instruction ∈ front, instruction.opcode ≠ "SEndpgm" := by
  induction swept with
  | last _ _ isEndpgm => exact ⟨[], _, rfl, isEndpgm, by simp⟩
  | more _ _ isOther _ ih =>
    obtain ⟨front, last, rfl, isEndpgm, others⟩ := ih
    refine ⟨_ :: front, last, rfl, isEndpgm, ?_⟩
    intro instruction member
    rcases List.mem_cons.mp member with rfl | later
    · exact isOther
    · exact others instruction later

theorem Swept.bounded (swept : Swept words address start program) :
    ∃ last, program.getLast? = some last ∧ start + 4 * program.length ≤ last.endPc.toNat ∧
      ∀ instruction ∈ program, instruction.pc < last.endPc := by
  induction swept with
  | @last final decodes isEnd =>
    have positive := (decodeAt_spec decodes).2.1
    refine ⟨final, rfl, by simp only [List.length_singleton]; omega, ?_⟩
    intro instruction member
    rw [List.mem_singleton.mp member, UInt32.lt_iff_toNat_lt]
    omega
  | more decodes isEnd _ swept ih =>
    obtain ⟨last, isLast, bound, below⟩ := ih
    obtain ⟨first, rest, rfl, _⟩ := swept.eq_cons
    have positive := (decodeAt_spec decodes).2.1
    refine ⟨last, ?_, by simp only [List.length_cons] at bound ⊢; omega, ?_⟩
    · rw [List.getLast?_cons_cons]
      exact isLast
    · intro instruction member
      rcases List.mem_cons.mp member with rfl | later
      · rw [UInt32.lt_iff_toNat_lt]
        omega
      · exact below instruction later

theorem Swept.not_start_of_exit (swept : Swept words address start program)
    {target : UInt32} (isExit : isExitBranchTarget program target = true) :
    ∀ instruction ∈ program, instruction.pc ≠ target := by
  obtain ⟨last, isLast, _, below⟩ := swept.bounded
  rintro instruction member rfl
  simp only [isExitBranchTarget, isLast, decide_eq_true_eq] at isExit
  exact absurd (below instruction member) (UInt32.not_lt.mpr isExit)

theorem Swept.covers (swept : Swept words address start program) {pc : UInt32}
    (above : start ≤ pc.toNat) (below : isExitBranchTarget program pc = false) :
    ∃ instruction ∈ program, instruction.pc ≤ pc ∧ pc < instruction.endPc := by
  induction swept with
  | last =>
    simp only [isExitBranchTarget, List.getLast?_singleton,
      decide_eq_false_iff_not, UInt32.not_le] at below
    exact ⟨_, List.mem_singleton_self _, UInt32.le_iff_toNat_le.mpr above, below⟩
  | @more instruction rest _ isEnd _ swept ih =>
    by_cases inside : pc < instruction.endPc
    · exact ⟨instruction, List.mem_cons_self, UInt32.le_iff_toNat_le.mpr above, inside⟩
    · have behind := UInt32.le_iff_toNat_le.mp (UInt32.not_lt.mp inside)
      have nonempty : rest ≠ [] := by
        obtain ⟨first, inRest, _⟩ := swept.head
        exact List.ne_nil_of_mem inRest
      have belowRest : isExitBranchTarget rest pc = false := by
        rw [← below]
        unfold isExitBranchTarget
        rw [List.getLast?_cons_of_ne_nil nonempty]
      obtain ⟨found, inRest, inFound⟩ := ih behind belowRest
      exact ⟨found, List.mem_cons_of_mem _ inRest, inFound⟩

end Sweeps

/-! ## Reachable code -/

inductive Reaches (words : GuestWords) (address : UInt64) : UInt32 → Prop
  | entry : Reaches words address 0
  | next {pc : UInt32} {instruction : Gen5ShaderInstruction} :
      Reaches words address pc →
      decodeAt words address pc = .ok instruction →
      instruction.opcode ≠ "SEndpgm" → instruction.opcode ≠ "SBranch" →
      Reaches words address instruction.endPc
  | taken {pc target : UInt32} {instruction : Gen5ShaderInstruction} :
      Reaches words address pc →
      decodeAt words address pc = .ok instruction →
      isBranch instruction.opcode = true →
      tryGetBranchTargetPc instruction = some target →
      Reaches words address target

def IsStart (program : List Gen5ShaderInstruction) (pc : UInt32) : Prop :=
  ∃ instruction ∈ program, instruction.pc = pc

def IsInside (program : List Gen5ShaderInstruction) (pc : UInt32) : Prop :=
  ∃ instruction ∈ program, instruction.pc < pc ∧ pc < instruction.endPc

def BranchesLand (words : GuestWords) (address : UInt64)
    (program : List Gen5ShaderInstruction) : Prop :=
  ∀ branch ∈ program, Reaches words address branch.pc → isBranch branch.opcode = true →
    ∀ target, tryGetBranchTargetPc branch = some target → IsStart program target

theorem isStart_of_reaches {words : GuestWords} {address : UInt64}
    {program : List Gen5ShaderInstruction} (swept : Swept words address 0 program)
    (land : BranchesLand words address program)
    (reached : Reaches words address pc) : IsStart program pc := by
  induction reached with
  | entry =>
    obtain ⟨first, member, isFirst⟩ := swept.head
    exact ⟨first, member, UInt32.toNat_inj.mp isFirst⟩
  | next _ decodes isOther _ ih =>
    obtain ⟨found, member, rfl⟩ := ih
    rw [swept.decoded found member, Except.ok.injEq] at decodes
    subst decodes
    exact swept.next found member isOther
  | taken reached decodes branches hasTarget ih =>
    obtain ⟨found, member, rfl⟩ := ih
    rw [swept.decoded found member, Except.ok.injEq] at decodes
    subst decodes
    exact land found member reached branches _ hasTarget

/-- What a decoded program misses: the sweep holds all reachable code exactly
when no reachable branch leaves it.  A target is an instruction of the program,
lies inside one, or is an exit. -/
theorem reachable_code_decoded {words : GuestWords} {address : UInt64}
    {program : List Gen5ShaderInstruction}
    (accepted : tryDecodeProgram words address = .ok program) :
    ((∀ pc, Reaches words address pc → IsStart program pc) ↔ BranchesLand words address program) ∧
    ∀ target, IsStart program target ∨ IsInside program target ∨
      isExitBranchTarget program target = true := by
  have swept := swept_of_accepted accepted
  refine ⟨⟨?_, ?_⟩, ?_⟩
  · intro allDecoded branch member reached branches target hasTarget
    exact allDecoded target (.taken reached (swept.decoded branch member) branches hasTarget)
  · intro land pc reached
    exact isStart_of_reaches swept land reached
  · intro target
    cases isExit : isExitBranchTarget program target with
    | true => exact .inr (.inr rfl)
    | false =>
      obtain ⟨instruction, member, low, high⟩ :=
        swept.covers (Nat.zero_le _) isExit
      rcases UInt32.lt_or_eq_of_le low with inside | same
      · exact .inr (.inl ⟨instruction, member, inside, high⟩)
      · exact .inl ⟨instruction, member, same⟩

def shaderAt (base : UInt64) (shader : List UInt32) : GuestWords := fun address =>
  if address < base ∨ (address - base) % 4 ≠ 0 then none
  else shader[((address - base) / 4).toNat]?

def outOfLineEnd : GuestWords :=
  shaderAt 0x1000 [0xBF840001, 0xBF810000, 0xBF800000, 0xBF810000]

theorem outOfLineEnd_decodes : tryDecodeProgram outOfLineEnd 0x1000 =
    .ok [⟨0, .sopp, "SCbranchScc0", [0xBF840001]⟩, ⟨4, .sopp, "SEndpgm", [0xBF810000]⟩] := by
  rfl

/-- The guest runs the instruction behind the first `s_endpgm`; the program does
not have it and takes the branch to it for an exit. -/
theorem code_behind_first_end_dropped :
    ∃ program, tryDecodeProgram outOfLineEnd 0x1000 = .ok program ∧ Reaches outOfLineEnd 0x1000 8 ∧
      decodeAt outOfLineEnd 0x1000 8 = .ok ⟨8, .sopp, "SNop", [0xBF800000]⟩ ∧
      isExitBranchTarget program 8 = true ∧ ¬ IsStart program 8 := by
  refine ⟨_, outOfLineEnd_decodes, ?_, rfl, by decide +kernel, ?_⟩
  · have first : decodeAt outOfLineEnd 0x1000 0 =
        .ok ⟨0, .sopp, "SCbranchScc0", [0xBF840001]⟩ := rfl
    exact .taken .entry first (by decide) (by decide +kernel)
  · rintro ⟨instruction, member, isEight⟩
    simp only [List.mem_cons, List.not_mem_nil, or_false] at member
    rcases member with rfl | rfl
    · exact absurd isEight (by decide)
    · exact absurd isEight (by decide)

theorem reachable_code_decoded_of_two_ends : IsStart [⟨0, .sopp, "SCbranchScc0", [0xBF840001]⟩,
        ⟨4, .sopp, "SEndpgm", [0xBF810000]⟩] 8 ∨
      IsInside [⟨0, .sopp, "SCbranchScc0", [0xBF840001]⟩, ⟨4, .sopp, "SEndpgm", [0xBF810000]⟩] 8 ∨
      isExitBranchTarget [⟨0, .sopp, "SCbranchScc0", [0xBF840001]⟩,
        ⟨4, .sopp, "SEndpgm", [0xBF810000]⟩] 8 = true :=
  (reachable_code_decoded outOfLineEnd_decodes).2 8

end Gen5Shader
end SharpEmu
