import Mathlib.Data.UInt

/-!
# Capture of vertex inputs

The evaluator groups the vertex inputs of a shader whose spans of guest memory
overlap or follow one another closely, and reads each group into one array of a
pool that its first input owns.
-/

namespace SharpEmu.Gen5ShaderScalarEvaluator

/-! ## Guest memory and arrays -/

structure GuestReader where
  byteAt : ℕ → UInt8
  accepts : ℕ → ℕ → Bool

structure PooledArray where
  lending : ℕ
  length : ℕ
  content : ℕ → UInt8

structure ArrayPool where
  rent : ℕ → ℕ → PooledArray
  lending_rent : ∀ lending length, (rent lending length).lending = lending
  length_rent : ∀ lending length, length ≤ (rent lending length).length

def maxGlobalMemoryBindingBytes : ℕ := 16 * 1024 * 1024

def ulongMax : ℕ := 2 ^ 64 - 1

def saturatingAdd (left right : ℕ) : ℕ :=
  if ulongMax - left < right then ulongMax else left + right

/-- The first length that can be read, halved after each failure. -/
def readableLength (guest : GuestReader) (baseAddress candidateSize : ℕ) :
    Option ℕ :=
  if candidateSize < 4 then none
  else if guest.accepts baseAddress candidateSize then some candidateSize
  else if _last : candidateSize = 4 then none
  else readableLength guest baseAddress (max (candidateSize / 2) 4)
termination_by candidateSize
decreasing_by omega

def tryReadGlobalMemory (pool : ArrayPool) (lending : ℕ) (guest : GuestReader)
    (baseAddress sizeBytes : ℕ) : Option (PooledArray × ℕ) :=
  let cappedSize := min sizeBytes maxGlobalMemoryBindingBytes
  if sizeBytes = 0 ∨ 0x7FFFFFFF < cappedSize then none
  else
    let rented := pool.rent lending (max cappedSize 4)
    if cappedSize < 4 then
      if guest.accepts baseAddress cappedSize then
        some
          ({ rented with
              content := fun index =>
                if index < cappedSize then guest.byteAt (baseAddress + index)
                else if index < 4 then 0
                else rented.content index }, 4)
      else none
    else
      (readableLength guest baseAddress cappedSize).map fun dataLength =>
        ({ rented with
            content := fun index =>
              if index < dataLength then guest.byteAt (baseAddress + index)
              else rented.content index }, dataLength)

/-! ## Bindings -/

structure VertexInputBinding where
  pc : ℕ
  location : ℕ
  componentCount : ℕ
  dataFormat : ℕ
  numberFormat : ℕ
  baseAddress : ℕ
  stride : ℕ
  offsetBytes : ℕ
  dataLength : ℕ
deriving DecidableEq

structure CapturedBinding extends VertexInputBinding where
  data : PooledArray
  dataPooled : Bool

/-- What a capture comes to; one that fails has returned the arrays of the groups
before, and one whose offsets overflow ends with an exception. -/
inductive CaptureResult where
  | captured (bindings : List CapturedBinding)
  | failed (address bytes stride : ℕ) (returned : List ℕ)
  | overflow

def extendGroup (stride : ℕ) : ℕ → List VertexInputBinding →
      ℕ × List VertexInputBinding × List VertexInputBinding
  | finish, [] => (finish, [], [])
  | finish, candidate :: ordered =>
      if candidate.stride = stride ∧ candidate.baseAddress ≤ saturatingAdd finish stride then
        let (finish, members, rest) := extendGroup stride (max finish
            (saturatingAdd candidate.baseAddress candidate.dataLength))
          ordered
        (finish, candidate :: members, rest)
      else (finish, [], candidate :: ordered)

def rebase (start : ℕ) (data : PooledArray) (dataLength : ℕ) (dataPooled : Bool)
    (binding : VertexInputBinding) : Option CapturedBinding :=
  let delta := binding.baseAddress - start
  if 2 ^ 32 ≤ delta + binding.offsetBytes then none
  else
    some
      { binding with
        baseAddress := start
        offsetBytes := delta + binding.offsetBytes
        dataLength := dataLength
        data := data
        dataPooled := dataPooled }

def rebaseGroup (data : PooledArray) (dataLength : ℕ)
    (first : VertexInputBinding) (members : List VertexInputBinding) :
    Option (List CapturedBinding) := do
  let owner ← rebase first.baseAddress data dataLength true first
  let others ← members.mapM (rebase first.baseAddress data dataLength false)
  return owner :: others

theorem length_extendGroup (stride finish : ℕ) (ordered : List VertexInputBinding) :
    (extendGroup stride finish ordered).2.2.length ≤ ordered.length := by
  induction ordered generalizing finish with
  | nil => exact Nat.le_refl 0
  | cons candidate ordered ih =>
    rw [extendGroup]
    split_ifs
    · exact Nat.le_succ_of_le (ih _)
    · exact Nat.le_refl _

def ownedArrays (captured : List CapturedBinding) : List ℕ :=
  (captured.filter (·.dataPooled)).map (·.data.lending)

def groupByteCount (start finish : ℕ) : ℕ :=
  if start < finish then min (finish - start) maxGlobalMemoryBindingBytes else 0

def readGroup (pool : ArrayPool) (guest : GuestReader) (lending start finish : ℕ) :
    Option (PooledArray × ℕ) :=
  if groupByteCount start finish = 0 then none
  else
    tryReadGlobalMemory pool lending guest start (groupByteCount start finish)

def captureGroups (pool : ArrayPool) (guest : GuestReader) (lending : ℕ)
    (captured : List CapturedBinding) : List VertexInputBinding → CaptureResult
  | [] => .captured captured
  | first :: ordered =>
      let group := extendGroup first.stride
        (saturatingAdd first.baseAddress first.dataLength) ordered
      match readGroup pool guest lending first.baseAddress group.1 with
      | none =>
          .failed first.baseAddress (groupByteCount first.baseAddress group.1)
            first.stride (ownedArrays captured)
      | some (data, dataLength) =>
          match rebaseGroup data dataLength first group.2.1 with
          | none => .overflow
          | some bindings =>
              captureGroups pool guest (lending + 1) (captured ++ bindings) group.2.2
termination_by ordered => ordered.length
decreasing_by exact Nat.lt_succ_of_le (length_extendGroup _ _ _)

/-- By stride, then by base address. -/
def Precedes (left right : VertexInputBinding) : Prop :=
  left.stride < right.stride ∨ (left.stride = right.stride ∧ left.baseAddress ≤ right.baseAddress)

instance : DecidableRel Precedes := fun _ _ => inferInstanceAs (Decidable (_ ∨ _))

def sortByLocation (captured : List CapturedBinding) : List CapturedBinding :=
  captured.insertionSort fun left right => left.location ≤ right.location

def tryCaptureVertexInputData (pool : ArrayPool) (guest : GuestReader)
    (pending : List VertexInputBinding) : CaptureResult :=
  match captureGroups pool guest 0 [] (pending.insertionSort Precedes) with
  | .captured captured => .captured (sortByLocation captured)
  | .failed address bytes stride returned => .failed address bytes stride returned
  | .overflow => .overflow

end SharpEmu.Gen5ShaderScalarEvaluator
