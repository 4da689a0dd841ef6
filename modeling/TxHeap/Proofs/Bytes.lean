/-
  TxHeap.Proofs.Bytes — stretches of memory, and the words and headers in them.

  What a store does is said of bytes: it changes those it covers and no other
  (`get_writeWord_of_apart`, `get_setHeaderAt_of_apart`), so whatever is read from bytes it
  does not cover reads as before (`read_congr`, `readWord_congr`, `headerAt_congr`). What is
  read where it was stored is what was stored (`readWord_writeWord`, `headerAt_setHeaderAt`),
  what is stored where it was read changes nothing (`writeWord_readWord`, `setHeaderAt_headerAt`),
  and a stretch with a store inside is the old stretch overlaid (`read_write_overlay`).
-/
import Mathlib.Algebra.GroupWithZero.Nat
import TxHeap.Header
import TxHeap.Memory

namespace TxHeap

def overlay (bytes : List UInt8) (offset : Nat) (new : List UInt8) : List UInt8 :=
  bytes.take offset ++ new ++ bytes.drop (offset + new.length)

def wordAt (bytes : List UInt8) (offset : Nat) : Nat := Word.ofBytes ((bytes.drop offset).take wordSize)

def Memory.headerAt (m : Memory) (obj : Nat) : Header := .decode (m.readWord obj) (m.readWord (obj + wordSize))

def Memory.setHeaderAt (m : Memory) (obj : Nat) (h : Header) : Memory :=
  (m.writeWord obj h.encode.1).writeWord (obj + wordSize) h.encode.2

def Memory.twinOf? (m : Memory) (obj : Nat) : Option Nat :=
  match (m.headerAt obj).version with
  | .forwarded twin => some twin
  | _ => none

theorem length_overlay {bytes new : List UInt8} {offset : Nat} (h : offset + new.length ≤ bytes.length) :
    (overlay bytes offset new).length = bytes.length := by
  simp only [overlay, List.length_append, List.length_take, List.length_drop]
  omega

/-! ## Words as bytes -/

namespace Word

@[simp] theorem length_toBytes (value : Nat) : (toBytes value).length = wordSize := by simp [toBytes]

/-- The low bytes of a number make the number up to their count. -/
theorem ofBytes_map_range (value n : Nat) :
    ofBytes ((List.range n).map fun i => UInt8.ofNat (value >>> (8 * i) % 256)) = value % 256 ^ n := by
  induction n generalizing value with
  | zero => exact (Nat.mod_one value).symm
  | succ n ih =>
    have shifted (i : Nat) : value >>> (8 * (i + 1)) = (value / 256) >>> (8 * i) := by
      rw [Nat.mul_succ, Nat.add_comm, Nat.shiftRight_add, Nat.shiftRight_eq_div_pow value 8]
    have low : (UInt8.ofNat (value >>> (8 * 0) % 256)).toNat = value % 256 := by
      rw [UInt8.toNat_ofNat', Nat.mod_mod, Nat.mul_zero, Nat.shiftRight_zero]
    rw [List.range_succ_eq_map, List.map_cons, List.map_map, ofBytes, List.foldr_cons, ← ofBytes, low, Nat.pow_succ',
      Nat.mod_mul, ← ih (value / 256)]
    simp only [Function.comp_def, Nat.succ_eq_add_one, shifted]

theorem ofBytes_toBytes (value : Nat) : ofBytes (toBytes value) = value % wordLimit :=
  ofBytes_map_range value wordSize

/-- Each byte is where it was put. -/
theorem byte_ofBytes (bytes : List UInt8) (i : Nat) : UInt8.ofNat (ofBytes bytes >>> (8 * i) % 256) = bytes.getD i 0 := by
  induction bytes generalizing i with
  | nil => simp [ofBytes]
  | cons b bytes ih =>
    have parts : ofBytes (b :: bytes) = b.toNat + 256 * ofBytes bytes := rfl
    have small := b.toNat_lt
    cases i with
    | zero =>
      have low : ofBytes (b :: bytes) >>> (8 * 0) % 256 = b.toNat := by
        rw [parts, Nat.mul_zero, Nat.shiftRight_zero]
        omega
      rw [low, UInt8.ofNat_toNat, List.getD_cons_zero]
    | succ i =>
      have rest : ofBytes (b :: bytes) >>> 8 = ofBytes bytes := by
        rw [parts, Nat.shiftRight_eq_div_pow]
        omega
      rw [Nat.mul_succ, Nat.add_comm, Nat.shiftRight_add, rest, ih, List.getD_cons_succ]

theorem toBytes_ofBytes {bytes : List UInt8} (h : bytes.length = wordSize) : toBytes (ofBytes bytes) = bytes := by
  refine List.ext_getElem (by rw [length_toBytes, h]) ?_
  intro i _ hi
  simp only [toBytes, List.getElem_map, List.getElem_range, byte_ofBytes]
  rw [List.getD_eq_getElem?_getD, List.getElem?_eq_getElem hi, Option.getD_some]

end Word

/-! ## Overlays -/

theorem getElem?_overlay {bytes new : List UInt8} {k : Nat} (h : k + new.length ≤ bytes.length) (i : Nat) :
    (overlay bytes k new)[i]? = if k ≤ i ∧ i < k + new.length then new[i - k]? else bytes[i]? := by
  have htake : (bytes.take k).length = k := by rw [List.length_take]; omega
  rw [overlay, List.append_assoc]
  by_cases h1 : i < k
  · rw [if_neg (by omega), List.getElem?_append_left (by omega), List.getElem?_take_of_lt h1]
  · rw [List.getElem?_append_right (by omega), htake]
    by_cases h2 : i < k + new.length
    · rw [if_pos (by omega), List.getElem?_append_left (by omega)]
    · have e : k + new.length + (i - k - new.length) = i := by omega
      rw [if_neg (by omega), List.getElem?_append_right (by omega), List.getElem?_drop, e]

theorem wordAt_congr {bytes bytes' : List UInt8} {k : Nat}
    (h : ∀ i, k ≤ i → i < k + wordSize → bytes'[i]? = bytes[i]?) : wordAt bytes' k = wordAt bytes k := by
  refine congrArg Word.ofBytes (List.ext_getElem? ?_)
  intro i
  rw [List.getElem?_take, List.getElem?_take, List.getElem?_drop, List.getElem?_drop]
  by_cases hi : i < wordSize
  · rw [if_pos hi, if_pos hi, h (k + i) (by omega) (by omega)]
  · rw [if_neg hi, if_neg hi]

theorem wordAt_overlay {bytes : List UInt8} {k : Nat} (value : Nat) (h : k + wordSize ≤ bytes.length) :
    wordAt (overlay bytes k (Word.toBytes value)) k = value % wordLimit := by
  have hlen := Word.length_toBytes value
  rw [← Word.ofBytes_toBytes value]
  refine congrArg Word.ofBytes (List.ext_getElem? ?_)
  intro i
  rw [List.getElem?_take, List.getElem?_drop, getElem?_overlay (by rw [hlen]; exact h), hlen]
  by_cases hi : i < wordSize
  · have e : k + i - k = i := by omega
    rw [if_pos hi, if_pos (by omega), e]
  · rw [if_neg hi, List.getElem?_eq_none (by omega)]

theorem wordAt_overlay_of_apart {bytes : List UInt8} {k offset value : Nat} (h : k + wordSize ≤ bytes.length)
    (apart : offset + wordSize ≤ k ∨ k + wordSize ≤ offset) :
    wordAt (overlay bytes k (Word.toBytes value)) offset = wordAt bytes offset := by
  have hlen := Word.length_toBytes value
  refine wordAt_congr ?_
  intro i _ _
  rw [getElem?_overlay (by rw [hlen]; exact h), hlen, if_neg (by omega)]

theorem wordAt_zeros (n k : Nat) : wordAt (List.replicate n 0) k = 0 := by
  have zeros : ∀ n, Word.ofBytes (List.replicate n 0) = 0 := fun n => by
    induction n with
    | zero => rfl
    | succ n ih => rw [List.replicate_succ, Word.ofBytes, List.foldr_cons, ← Word.ofBytes, ih]; rfl
  rw [wordAt, List.drop_replicate, List.take_replicate, zeros]

theorem Header.encode_lt {h : Header} (fits : h.Fits) : h.encode.1 < wordLimit ∧ h.encode.2 < wordLimit := by
  have := fits.typeId_lt
  have := fits.flags_lt
  refine ⟨?_, fits.slot_lt⟩
  simp only [encode, idLimit, wordLimit] at *
  omega

namespace Memory

variable {m m' : Memory} {a b n : Nat}

/-! ## Reading -/

theorem getElem?_read (m : Memory) (a n i : Nat) :
    (m.read a n)[i]? = if i < n then some (m.get (a + i)) else none := by
  rw [read, List.getElem?_map]
  by_cases hi : i < n
  · rw [List.getElem?_range hi, if_pos hi]
    rfl
  · rw [List.getElem?_eq_none (by simpa using hi), if_neg hi]
    rfl

theorem read_congr (h : ∀ i, a ≤ i → i < a + n → m'.get i = m.get i) : m'.read a n = m.read a n := by
  refine List.map_congr_left ?_
  intro i hi
  have := List.mem_range.mp hi
  exact h (a + i) (by omega) (by omega)

theorem readWord_congr (h : ∀ i, a ≤ i → i < a + wordSize → m'.get i = m.get i) : m'.readWord a = m.readWord a := by
  rw [readWord, readWord, read_congr h]

theorem headerAt_congr (h : ∀ i, a ≤ i → i < a + headerSize → m'.get i = m.get i) :
    m'.headerAt a = m.headerAt a := by
  have first : m'.readWord a = m.readWord a := readWord_congr fun i hl hr =>
    h i hl (by simp only [headerSize, wordSize] at *; omega)
  have second : m'.readWord (a + wordSize) = m.readWord (a + wordSize) := readWord_congr fun i hl hr =>
    h i (by omega) (by simp only [headerSize, wordSize] at *; omega)
  rw [headerAt, headerAt, first, second]

/-- A part of a stretch, read by itself. -/
theorem take_drop_read {k len : Nat} (h : k + len ≤ n) : ((m.read a n).drop k).take len = m.read (a + k) len := by
  refine List.ext_getElem? ?_
  intro i
  rw [List.getElem?_take, List.getElem?_drop, getElem?_read, getElem?_read]
  by_cases hi : i < len
  · rw [if_pos hi, if_pos (by omega), if_pos hi, Nat.add_assoc]
  · rw [if_neg hi, if_neg hi]

theorem wordAt_read {k : Nat} (h : k + wordSize ≤ n) : wordAt (m.read a n) k = m.readWord (a + k) := by
  rw [wordAt, take_drop_read h, readWord]

/-- Memory that is blank reads as zeros. -/
theorem read_eq_zeros (h : ∀ i, a ≤ i → i < a + n → m.get i = 0) : m.read a n = List.replicate n 0 := by
  refine List.ext_getElem? ?_
  intro i
  rw [getElem?_read, List.getElem?_replicate]
  by_cases hi : i < n
  · rw [if_pos hi, if_pos hi, h (a + i) (by omega) (by omega)]
  · rw [if_neg hi, if_neg hi]

/-! ## Storing -/

theorem get_write_of_apart {bytes : List UInt8} {i : Nat} (h : i < a ∨ a + bytes.length ≤ i) :
    (m.write a bytes).get i = m.get i := by
  rw [get_write, if_neg (by omega)]

theorem get_writeWord_of_apart {value i : Nat} (h : i < a ∨ a + wordSize ≤ i) :
    (m.writeWord a value).get i = m.get i :=
  get_write_of_apart (by rw [Word.length_toBytes]; exact h)

theorem get_setHeaderAt_of_apart {h : Header} {i : Nat} (hi : i < a ∨ a + headerSize ≤ i) :
    (m.setHeaderAt a h).get i = m.get i := by
  simp only [headerSize] at hi
  rw [setHeaderAt, get_writeWord_of_apart (by omega), get_writeWord_of_apart (by omega)]

/-- A header is the same over whatever it was written. -/
theorem get_setHeaderAt_congr {h : Header} {i : Nat} (same : i < a ∨ a + headerSize ≤ i → m'.get i = m.get i) :
    (m'.setHeaderAt a h).get i = (m.setHeaderAt a h).get i := by
  by_cases inside : i < a ∨ a + headerSize ≤ i
  · rw [get_setHeaderAt_of_apart inside, get_setHeaderAt_of_apart inside, same inside]
  · simp only [headerSize] at inside
    simp only [setHeaderAt, writeWord, get_write, Word.length_toBytes]
    by_cases second : a + wordSize ≤ i
    · rw [if_pos (by omega), if_pos (by omega)]
    · rw [if_neg (by omega), if_pos (by omega), if_neg (by omega), if_pos (by omega)]

theorem read_write (m : Memory) (a : Nat) (bytes : List UInt8) : (m.write a bytes).read a bytes.length = bytes := by
  refine List.ext_getElem? ?_
  intro i
  rw [getElem?_read]
  by_cases hi : i < bytes.length
  · have e : a + i - a = i := by omega
    rw [if_pos hi, get_write, if_pos (by omega), e, List.getD_eq_getElem?_getD, List.getElem?_eq_getElem hi]
    rfl
  · rw [if_neg hi, List.getElem?_eq_none (by omega)]

theorem readWord_writeWord (m : Memory) (a value : Nat) : (m.writeWord a value).readWord a = value % wordLimit := by
  have := read_write m a (Word.toBytes value)
  rw [Word.length_toBytes] at this
  rw [readWord, writeWord, this, Word.ofBytes_toBytes]

theorem readWord_writeWord_of_apart {value : Nat} (h : b + wordSize ≤ a ∨ a + wordSize ≤ b) :
    (m.writeWord a value).readWord b = m.readWord b :=
  readWord_congr fun i _ _ => get_writeWord_of_apart (by omega)

theorem headerAt_setHeaderAt {h : Header} (fits : h.Fits) : (m.setHeaderAt a h).headerAt a = h := by
  have first : h.encode.1 % wordLimit = h.encode.1 := Nat.mod_eq_of_lt (Header.encode_lt fits).1
  have second : h.encode.2 % wordLimit = h.encode.2 := Nat.mod_eq_of_lt (Header.encode_lt fits).2
  rw [headerAt, setHeaderAt, readWord_writeWord_of_apart (by omega), readWord_writeWord, readWord_writeWord, first,
    second, Header.decode_encode fits]

/-- A store of the bytes that are there already changes nothing. -/
theorem write_eq_self {bytes : List UInt8} (h : ∀ i < bytes.length, m.get (a + i) = bytes.getD i 0) :
    m.write a bytes = m := by
  induction bytes generalizing a with
  | nil => rfl
  | cons b bytes ih =>
    have first : m.set a b = m := if_pos (h 0 (Nat.succ_pos _))
    rw [write, first]
    refine ih fun i hi => ?_
    have next := h (i + 1) (Nat.succ_lt_succ hi)
    rwa [List.getD_cons_succ, Nat.add_comm i 1, ← Nat.add_assoc] at next

theorem writeWord_readWord (m : Memory) (a : Nat) : m.writeWord a (m.readWord a) = m := by
  rw [writeWord, readWord, Word.toBytes_ofBytes (length_read ..)]
  refine write_eq_self fun i hi => ?_
  rw [length_read] at hi
  rw [List.getD_eq_getElem?_getD, getElem?_read, if_pos hi, Option.getD_some]

theorem setHeaderAt_headerAt (m : Memory) (a : Nat) : m.setHeaderAt a (m.headerAt a) = m := by
  rw [setHeaderAt, headerAt, Header.encode_decode, writeWord_readWord, writeWord_readWord]

/-- A store inside a stretch overlays what is read from it. -/
theorem read_write_overlay {k : Nat} {bytes : List UInt8} (h : k + bytes.length ≤ n) :
    (m.write (a + k) bytes).read a n = overlay (m.read a n) k bytes := by
  refine List.ext_getElem? ?_
  intro i
  rw [getElem?_overlay (by rw [length_read]; exact h), getElem?_read]
  by_cases hi : k ≤ i ∧ i < k + bytes.length
  · have e : a + i - (a + k) = i - k := by omega
    rw [if_pos hi, if_pos (by omega), get_write, if_pos (by omega), e, List.getD_eq_getElem?_getD,
      List.getElem?_eq_getElem (by omega)]
    rfl
  · rw [if_neg hi, getElem?_read, get_write_of_apart (by omega)]

theorem read_writeWord_overlay {k value : Nat} (h : k + wordSize ≤ n) :
    (m.writeWord (a + k) value).read a n = overlay (m.read a n) k (Word.toBytes value) :=
  read_write_overlay (by rw [Word.length_toBytes]; exact h)

/-- A byte for byte copy of an object, under another header. -/
theorem copy_object {h : Header} {size : Nat} (m m' : Memory) (a b : Nat) (hsize : headerSize ≤ size) (fits : h.Fits) :
    ((m.write b (m'.read a size)).setHeaderAt b h).headerAt b = h ∧
      ((m.write b (m'.read a size)).setHeaderAt b h).read (b + headerSize) (size - headerSize) =
        m'.read (a + headerSize) (size - headerSize) ∧
      ∀ i, i < b ∨ b + size ≤ i → ((m.write b (m'.read a size)).setHeaderAt b h).get i = m.get i := by
  have whole := read_write m b (m'.read a size)
  rw [length_read] at whole
  refine ⟨headerAt_setHeaderAt fits, ?_, ?_⟩
  · rw [read_congr fun i hl _ => get_setHeaderAt_of_apart (.inr hl), ← take_drop_read (n := size) (by omega),
      ← take_drop_read (n := size) (by omega), whole]
  · intro i hi
    rw [get_setHeaderAt_of_apart (by omega), get_write_of_apart (by rw [length_read]; exact hi)]

end Memory

end TxHeap
