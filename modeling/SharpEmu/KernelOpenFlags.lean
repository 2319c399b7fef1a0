import Mathlib.Data.UInt

/-!
# Open flags of the kernel exports

The flags a guest opens a file with, and the access and mode of the host stream
they become.
-/

namespace SharpEmu.KernelFiles

def oWronly : UInt32 := 0x1
def oRdwr : UInt32 := 0x2
def oAppend : UInt32 := 0x8
def oCreat : UInt32 := 0x0200
def oTrunc : UInt32 := 0x0400
def oDirectory : UInt32 := 0x00020000

inductive FileAccess
  | read
  | write
  | readWrite
  deriving DecidableEq

def FileAccess.canWrite : FileAccess → Bool
  | .read => false
  | .write => true
  | .readWrite => true

inductive FileMode
  | openExisting
  | openOrCreate
  | create
  | truncate
  deriving DecidableEq

def hasFlag (flags flag : UInt32) : Bool := flags &&& flag ≠ 0

def resolveOpenAccess (flags : UInt32) : FileAccess :=
  if flags &&& oRdwr = oRdwr then .readWrite
  else if flags &&& oWronly = oWronly then .write
  else .read

def resolveOpenMode (flags : UInt32) (access : FileAccess) : FileMode :=
  let create := hasFlag flags oCreat
  let truncate := hasFlag flags oTrunc
  if create ∧ truncate then .create
  else if create then .openOrCreate
  else if truncate then if access = .read then .openExisting else .truncate
  else .openExisting

def isMutatingOpen (flags : UInt32) : Bool :=
  flags &&& (oWronly ||| oRdwr ||| oCreat ||| oTrunc ||| oAppend) ≠ 0

inductive HostException
  | io
  | unauthorizedAccess
  | argument
  deriving DecidableEq

end SharpEmu.KernelFiles
