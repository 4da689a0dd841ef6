/-
  TxHeap.Token — tokens that name objects.

  An object is named by a word: its address, or a token fabricated for it while it was
  private. A token table says which addresses have a fabricated token. The identity hash
  is the token scrambled by `scramble`.
-/
import TxHeap.Word
import Std.Data.TreeMap

namespace TxHeap

def scramble (n : Nat) : Nat := n ^^^ (n >>> 4)

structure TokenTable where
  entries : Std.TreeMap Nat Nat

namespace TokenTable

def empty : TokenTable := ⟨∅⟩

def get? (t : TokenTable) (addr : Nat) : Option Nat := t.entries[addr]?

def insert (t : TokenTable) (addr token : Nat) : TokenTable := ⟨t.entries.insert addr token⟩

def erase (t : TokenTable) (addr : Nat) : TokenTable := ⟨t.entries.erase addr⟩

def size (t : TokenTable) : Nat := t.entries.size

@[simp] theorem get?_empty (addr : Nat) : empty.get? addr = none := Std.TreeMap.getElem?_emptyc

theorem get?_insert (t : TokenTable) (addr token a : Nat) :
    (t.insert addr token).get? a = if a = addr then some token else t.get? a := by
  simp only [get?, insert, Std.TreeMap.getElem?_insert, Nat.compare_eq_eq]
  simp only [eq_comm]

theorem get?_erase (t : TokenTable) (addr a : Nat) :
    (t.erase addr).get? a = if a = addr then none else t.get? a := by
  simp only [get?, erase, Std.TreeMap.getElem?_erase, Nat.compare_eq_eq]
  simp only [eq_comm]

end TokenTable

end TxHeap
