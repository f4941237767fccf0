import Mathlib.Data.List.GetD
import SlurmTracer.Lib.Bytes

/-! A block of memory as its bytes: stores and loads at fixed offsets, and
little-endian words. -/
namespace SlurmTracer.Lib.Memory

/-! ### Stores and loads -/

/-- The bytes written over the block from `offset` on. A block keeps its size. -/
def store (offset : Nat) (bytes block : Bytes) : Bytes :=
  block.mapIdx fun i c => if offset ≤ i then bytes.getD (i - offset) c else c

def load (offset size : Nat) (block : Bytes) : Bytes := (block.drop offset).take size

variable {offset size elsewhere : Nat} {bytes block : Bytes}

@[simp] theorem length_store (offset : Nat) (bytes block : Bytes) :
    (store offset bytes block).length = block.length := List.length_mapIdx

/-- A load that begins where a store began finds what was stored, and behind it
what lay there before. -/
theorem load_store_start (fits : offset + bytes.length ≤ block.length) (covered : bytes.length ≤ size) :
    load offset size (store offset bytes block) =
      bytes ++ load (offset + bytes.length) (size - bytes.length) block := by
  refine List.ext_getElem ?_ fun i low high => ?_
  · simp only [load, List.length_append, List.length_take, List.length_drop, length_store]
    omega
  · simp only [load, store, List.getElem_take, List.getElem_drop, List.getElem_mapIdx, Nat.le_add_right, if_true,
      Nat.add_sub_cancel_left, List.getElem_append]
    split
    · rw [List.getD_eq_getElem]
    · rw [List.getD_eq_default _ _ (by omega)]
      congr 1
      omega

/-- What was stored is loaded. -/
theorem load_store (fits : offset + bytes.length ≤ block.length) :
    load offset bytes.length (store offset bytes block) = bytes := by
  rw [load_store_start fits (Nat.le_refl _), Nat.sub_self]
  simp [load]

/-- Bytes the store does not touch stay. -/
theorem load_store_apart (apart : elsewhere + size ≤ offset ∨ offset + bytes.length ≤ elsewhere) :
    load elsewhere size (store offset bytes block) = load elsewhere size block := by
  refine List.ext_getElem ?_ fun i low high => ?_
  · simp only [load, List.length_take, List.length_drop, length_store]
  · have inside : i < size := by
      rw [load, List.length_take] at high
      omega
    simp only [load, store, List.getElem_take, List.getElem_drop, List.getElem_mapIdx]
    split
    · rw [List.getD_eq_default _ _ (by omega)]
    · rfl

/-! ### Words -/

/-- The `width` bytes of a number, the lowest first. -/
def wordBytes : Nat → Nat → Bytes
  | 0, _ => []
  | width + 1, value => (value % 256).toUInt8 :: wordBytes width (value / 256)

def wordValue : Bytes → Nat
  | [] => 0
  | c :: bytes => c.toNat + 256 * wordValue bytes

@[simp] theorem length_word_bytes (width value : Nat) : (wordBytes width value).length = width := by
  induction width generalizing value with
  | zero => rfl
  | succ width ih => rw [wordBytes, List.length_cons, ih]

theorem word_value_word_bytes (width value : Nat) : wordValue (wordBytes width value) = value % 256 ^ width := by
  induction width generalizing value with
  | zero => rw [wordBytes, wordValue, Nat.pow_zero, Nat.mod_one]
  | succ width ih =>
    have lowest : ((value % 256).toUInt8).toNat = value % 256 := by
      rw [UInt8.toNat_ofNat']
      omega
    rw [wordBytes, wordValue, lowest, ih, Nat.pow_succ', Nat.mod_mul]

/-- The word at an offset. -/
def loadWord (offset width : Nat) (block : Bytes) : Nat := wordValue (load offset width block)

def storeWord (offset width value : Nat) (block : Bytes) : Bytes := store offset (wordBytes width value) block

variable {width width' value : Nat}

@[simp] theorem length_store_word (offset width value : Nat) (block : Bytes) :
    (storeWord offset width value block).length = block.length := length_store offset _ block

theorem load_word_store_word (fits : offset + width ≤ block.length) :
    loadWord offset width (storeWord offset width value block) = value % 256 ^ width := by
  have stored := load_store (by rwa [length_word_bytes] : offset + (wordBytes width value).length ≤ block.length)
  rw [length_word_bytes] at stored
  rw [loadWord, storeWord, stored, word_value_word_bytes]

theorem load_store_word_apart (apart : elsewhere + size ≤ offset ∨ offset + width ≤ elsewhere) :
    load elsewhere size (storeWord offset width value block) = load elsewhere size block :=
  load_store_apart (by rwa [length_word_bytes])

theorem load_word_apart (apart : elsewhere + width' ≤ offset ∨ offset + width ≤ elsewhere) :
    loadWord elsewhere width' (storeWord offset width value block) = loadWord elsewhere width' block := by
  rw [loadWord, loadWord, load_store_word_apart apart]

theorem load_word_store_apart (apart : elsewhere + width ≤ offset ∨ offset + bytes.length ≤ elsewhere) :
    loadWord elsewhere width (store offset bytes block) = loadWord elsewhere width block := by
  rw [loadWord, loadWord, load_store_apart apart]

end SlurmTracer.Lib.Memory
