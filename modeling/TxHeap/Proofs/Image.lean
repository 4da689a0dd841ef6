/-
  TxHeap.Proofs.Image — private objects as a graph, and what becomes of their pointers.

  The strong pointers of a transaction's objects make a graph; a preparation promotes what
  can be reached in it from the working copies (`Reaches`). It replaces pointers by
  their images (`Image`): null and shared addresses are their own, a working copy's is its
  root, and a promoted object's is its twin. A body is replaced field by field; `Replaced`
  says of a body under way which fields are done, that the others hold what they held, and
  that no byte outside the fields has changed.
-/
import TxHeap.Proofs.Record

namespace TxHeap

/-! ## The graph -/

/-- What strong pointers lead to, in any number of steps, from the working copies; `word` tells what the fields hold. -/
inductive Reaches (layout : Layout) (own : List Record) (word : Record → Nat → Nat) : Nat → Prop
  | root {r : Record} {root offset : Nat} : r ∈ own → r.kind = .copyOf root → offset ∈ layout.pointers r.typeId →
      Reaches layout own word (word r offset)
  | step {r : Record} {offset : Nat} : Reaches layout own word r.addr → r ∈ own → offset ∈ layout.pointers r.typeId →
      Reaches layout own word (word r offset)

theorem Reaches.congr {layout : Layout} {own : List Record} {word word' : Record → Nat → Nat} {a : Nat}
    (h : Reaches layout own word a) (same : ∀ r ∈ own, ∀ offset ∈ layout.pointers r.typeId, word r offset = word' r offset) :
    Reaches layout own word' a := by
  induction h with
  | root hr hk ho =>
    rw [same _ hr _ ho]
    exact .root hr hk ho
  | step _ hr ho ih =>
    rw [same _ hr _ ho]
    exact .step ih hr ho

theorem reaches_congr {layout : Layout} {own : List Record} {word word' : Record → Nat → Nat} {a : Nat}
    (same : ∀ r ∈ own, ∀ offset ∈ layout.pointers r.typeId, word r offset = word' r offset) :
    Reaches layout own word a ↔ Reaches layout own word' a :=
  ⟨fun h => h.congr same, fun h => h.congr fun r hr offset ho => (same r hr offset ho).symm⟩

/--
What a pointer becomes. `moves` are the promoted objects with the addresses of their twins,
and `outside` holds of the shared addresses, which are left alone.
-/
inductive Image (own : List Record) (moves : List (Record × Nat)) (outside : Nat → Prop) : Nat → Nat → Prop
  | null : Image own moves outside 0 0
  | root {r : Record} {root : Nat} : r ∈ own → r.kind = .copyOf root → Image own moves outside r.addr root
  | twin {r : Record} {twin : Nat} : (r, twin) ∈ moves → Image own moves outside r.addr twin
  | shared {v : Nat} : outside v → Image own moves outside v v

/-- The object of a weak pointer was not promoted, and the pointer is cleared. -/
def Cleared (own : List Record) (moves : List (Record × Nat)) (v v' : Nat) : Prop :=
  v' = 0 ∧ ∃ r ∈ own, r.addr = v ∧ r.kind = .fresh ∧ ∀ twin, (r, twin) ∉ moves

theorem Image.mono {own : List Record} {moves moves' : List (Record × Nat)} {outside outside' : Nat → Prop} {v v' : Nat}
    (h : Image own moves outside v v') (more : ∀ x ∈ moves, x ∈ moves') (wider : ∀ v, outside v → outside' v) :
    Image own moves' outside' v v' := by
  cases h with
  | null => exact .null
  | root hr hk => exact .root hr hk
  | twin ht => exact .twin (more _ ht)
  | shared hv => exact .shared (wider _ hv)

/-! ## Bodies under way -/

/-- What a field of a type becomes: `image` is for strong pointers, `weak` for the weak one. -/
def Layout.Becomes (layout : Layout) (typeId : Nat) (image weak : Nat → Nat → Prop) (offset v v' : Nat) : Prop :=
  offset ∈ layout.pointers typeId ∧ image v v' ∨ layout.weak? typeId = some offset ∧ weak v v'

theorem Layout.Becomes.mono {layout : Layout} {typeId offset v v' : Nat} {image image' weak weak' : Nat → Nat → Prop}
    (h : layout.Becomes typeId image weak offset v v') (himage : image v v' → image' v v')
    (hweak : weak v v' → weak' v v') : layout.Becomes typeId image' weak' offset v v' := by
  rcases h with ⟨ho, h⟩ | ⟨ho, h⟩
  · exact .inl ⟨ho, himage h⟩
  · exact .inr ⟨ho, hweak h⟩

/-- The old body with some of its fields replaced; `becomes` tells what from what. -/
structure Replaced (becomes : Nat → Nat → Nat → Prop) (fields done : List Nat) (old new : List UInt8) : Prop where
  length : new.length = old.length
  replaced : ∀ offset ∈ done, becomes offset (wordAt old offset) (wordAt new offset)
  waiting : ∀ offset ∈ fields, offset ∉ done → wordAt new offset = wordAt old offset
  rest : ∀ i, (∀ offset ∈ fields, i < offset ∨ offset + wordSize ≤ i) → new[i]? = old[i]?

namespace Replaced

variable {becomes becomes' : Nat → Nat → Nat → Prop} {fields done : List Nat} {old new : List UInt8} {offset v : Nat}

theorem refl (becomes : Nat → Nat → Nat → Prop) (fields : List Nat) (body : List UInt8) :
    Replaced becomes fields [] body body :=
  ⟨rfl, nofun, fun _ _ _ => rfl, fun _ _ => rfl⟩

theorem mono (h : Replaced becomes fields done old new)
    (more : ∀ offset ∈ done, ∀ v v', becomes offset v v' → becomes' offset v v') :
    Replaced becomes' fields done old new :=
  ⟨h.length, fun offset ho => more offset ho _ _ (h.replaced offset ho), h.waiting, h.rest⟩

/-- A field that already holds what it becomes. -/
theorem keep (h : Replaced becomes fields done old new) (ho : offset ∈ fields) (hd : offset ∉ done)
    (hv : becomes offset (wordAt old offset) (wordAt old offset)) :
    Replaced becomes fields (done ++ [offset]) old new := by
  refine ⟨h.length, ?_, ?_, h.rest⟩
  · intro o hin
    rcases List.mem_append.mp hin with hin | hin
    · exact h.replaced o hin
    · rw [List.mem_singleton.mp hin, h.waiting offset ho hd]
      exact hv
  · intro o hf hnot
    exact h.waiting o hf fun hc => hnot (List.mem_append_left _ hc)

/-- A field is overwritten with what it becomes. -/
theorem store (h : Replaced becomes fields done old new) (ho : offset ∈ fields) (hsub : ∀ o ∈ done, o ∈ fields)
    (hd : offset ∉ done)
    (apart : ∀ o ∈ fields, o ≠ offset → o + wordSize ≤ offset ∨ offset + wordSize ≤ o)
    (fit : offset + wordSize ≤ old.length) (word : v < wordLimit) (hv : becomes offset (wordAt old offset) v) :
    Replaced becomes fields (done ++ [offset]) old (overlay new offset (Word.toBytes v)) := by
  have hlen := Word.length_toBytes v
  have fit' : offset + wordSize ≤ new.length := by rw [h.length]; exact fit
  refine ⟨?_, ?_, ?_, ?_⟩
  · rw [length_overlay (by rw [hlen]; exact fit'), h.length]
  · intro o hin
    rcases List.mem_append.mp hin with hin | hin
    · have ne : o ≠ offset := fun e => hd (e ▸ hin)
      rw [wordAt_overlay_of_apart fit' (apart o (hsub o hin) ne)]
      exact h.replaced o hin
    · rw [List.mem_singleton.mp hin, wordAt_overlay v fit', Nat.mod_eq_of_lt word]
      exact hv
  · intro o hf hnot
    have ne : o ≠ offset := fun e => hnot (by rw [e]; exact List.mem_append_right _ (List.mem_singleton_self _))
    rw [wordAt_overlay_of_apart fit' (apart o hf ne)]
    exact h.waiting o hf fun hc => hnot (List.mem_append_left _ hc)
  · intro i hi
    have := hi offset ho
    rw [getElem?_overlay (by rw [hlen]; exact fit'), hlen, if_neg (by omega)]
    exact h.rest i hi

end Replaced

end TxHeap
