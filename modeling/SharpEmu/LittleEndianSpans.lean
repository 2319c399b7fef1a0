import Mathlib.Tactic.Common
import Mathlib.Tactic.Ring
import Mathlib.Algebra.Order.Group.Nat

/-!
# Little-endian fields of byte spans

A span of bytes is a function from offsets to bytes.  A field of a given width
is written least significant byte first and read back the same way.  A read sees
the last write to its own field, passes over writes to fields apart from it, and
splits into reads of adjacent narrower fields.
-/

namespace SharpEmu.LittleEndian

def byteAt (value : ℕ) : ℕ → UInt8
  | 0 => UInt8.ofNat value
  | index + 1 => byteAt (value / 256) index

/-- The number whose first bytes are those of a span. -/
def assemble (span : ℕ → UInt8) : ℕ → ℕ
  | 0 => 0
  | count + 1 =>
      (span 0).toNat + 256 * assemble (fun index => span (index + 1)) count

/-- Write a field of `count` bytes. -/
def store (span : ℕ → UInt8) (offset count value : ℕ) : ℕ → UInt8 :=
  fun index =>
    if offset ≤ index ∧ index < offset + count then
      byteAt value (index - offset)
    else span index

/-- Read a field of `count` bytes. -/
def load (span : ℕ → UInt8) (offset count : ℕ) : ℕ :=
  assemble (fun index => span (offset + index)) count

variable {left right : ℕ → UInt8} {count : ℕ}

theorem assemble_congr (agree : ∀ index < count, left index = right index) :
    assemble left count = assemble right count := by
  induction count generalizing left right with
  | zero => rfl
  | succ count ih =>
    rw [assemble, assemble, agree 0 (by omega)]
    rw [ih fun index bound => agree (index + 1) (by omega)]

theorem assemble_byteAt (value count : ℕ) :
    assemble (byteAt value) count = value % 256 ^ count := by
  induction count generalizing value with
  | zero => simp [assemble, Nat.mod_one]
  | succ count ih =>
    have lowest : (byteAt value 0).toNat = value % 256 := by
      simp [byteAt]
    have shifted : (fun index => byteAt value (index + 1)) = byteAt (value / 256) := rfl
    rw [assemble, lowest, shifted, ih, pow_succ', Nat.mod_mul]

theorem assemble_zero (count : ℕ) : assemble (fun _ => 0) count = 0 := by
  induction count with
  | zero => rfl
  | succ count ih => simp [assemble, ih]

theorem assemble_add (span : ℕ → UInt8) (low high : ℕ) : assemble span (low + high) =
      assemble span low + 256 ^ low * assemble (fun index => span (low + index)) high := by
  induction low generalizing span with
  | zero => simp [assemble]
  | succ low ih =>
    rw [Nat.succ_add, assemble, ih, assemble]
    have shifted : (fun index => span (low + index + 1)) =
        fun index => span (low + 1 + index) := by
      funext index
      rw [Nat.add_right_comm]
    rw [shifted]
    ring

theorem byteAt_assemble (span : ℕ → UInt8) {index : ℕ} (inside : index < count) :
    byteAt (assemble span count) index = span index := by
  induction index generalizing span count with
  | zero =>
    obtain ⟨count, rfl⟩ := Nat.exists_eq_succ_of_ne_zero (by omega : count ≠ 0)
    apply UInt8.toNat_inj.mp
    have bound : (span 0).toNat < 256 := (span 0).toNat_lt
    rw [byteAt, assemble, UInt8.toNat_ofNat']
    omega
  | succ index ih =>
    obtain ⟨count, rfl⟩ := Nat.exists_eq_succ_of_ne_zero (by omega : count ≠ 0)
    have bound : (span 0).toNat < 256 := (span 0).toNat_lt
    have shifted : ((span 0).toNat + 256 * assemble (fun place => span (place + 1)) count) / 256 =
          assemble (fun place => span (place + 1)) count := by
      omega
    rw [byteAt, assemble, shifted]
    exact ih _ (by omega)

theorem assemble_lt (span : ℕ → UInt8) (count : ℕ) : assemble span count < 256 ^ count := by
  induction count generalizing span with
  | zero => simp [assemble]
  | succ count ih =>
    have bound : (span 0).toNat < 256 := (span 0).toNat_lt
    have rest := ih fun index => span (index + 1)
    rw [assemble, pow_succ']
    omega

variable {offset : ℕ}

theorem load_congr (agree : ∀ index < count, left (offset + index) = right (offset + index)) :
    load left offset count = load right offset count :=
  assemble_congr agree

theorem load_store_same (span : ℕ → UInt8) (offset count value : ℕ) :
    load (store span offset count value) offset count = value % 256 ^ count := by
  rw [load, ← assemble_byteAt]
  apply assemble_congr
  intro index bound
  simp [store, bound]

theorem load_store_apart (span : ℕ → UInt8) {value other width : ℕ}
    (apart : other + width ≤ offset ∨ offset + count ≤ other) :
    load (store span offset count value) other width =
      load span other width := by
  apply load_congr
  intro index bound
  rw [store, if_neg (by omega)]

theorem load_zero (offset count : ℕ) : load (fun _ => 0) offset count = 0 :=
  assemble_zero count

theorem load_add (span : ℕ → UInt8) (offset low high : ℕ) : load span offset (low + high) =
      load span offset low + 256 ^ low * load span (offset + low) high := by
  simp only [load, assemble_add, Nat.add_assoc]

end SharpEmu.LittleEndian
