/-
  TxHeap.Proofs.Types — what the heap may rely on in the types of a registry.

  The fields of a type are its strong pointers and its weak field. In a layout that is
  sound every field is an aligned word inside the payload, and no two fields are the same
  (`Layout.Sound`); so two fields of an object never share a byte (`Sound.apart`). Every
  registry that was built by registering types is sound (`Registry.Built.sound`).
-/
import TxHeap.Registry

namespace TxHeap

/-- Payload offsets of all pointers of a type, the weak one last. -/
def Layout.fields (layout : Layout) (typeId : Nat) : List Nat :=
  layout.pointers typeId ++ (layout.weak? typeId).toList

structure Layout.Sound (layout : Layout) : Prop where
  typeId_lt : ∀ {typeId payload : Nat}, layout.payload? typeId = some payload → typeId < idLimit
  field_fits : ∀ {typeId offset : Nat}, offset ∈ layout.fields typeId →
    ∃ payload, layout.payload? typeId = some payload ∧ offset + wordSize ≤ payload
  field_aligned : ∀ {typeId offset : Nat}, offset ∈ layout.fields typeId → offset % wordSize = 0
  fields_nodup : ∀ typeId : Nat, (layout.fields typeId).Nodup

/-- No object size leaves the range of words. -/
def Layout.Bounded (layout : Layout) : Prop :=
  ∀ (typeId : Nat) (kind : Overflow), layout.objectSize typeId ≠ .error (.overflow kind)

inductive Registry.Built : Registry → Prop
  | empty : Built .empty
  | register {r r' : Registry} {t : TypeRecord} {typeId : Nat} :
      Built r → r.register t = .ok (typeId, r') → Built r'

/-! ## Pointer maps -/

namespace PointerMap

variable {m : PointerMap} {offset : Nat}

theorem mem_offsets : offset ∈ m.offsets ↔ ∃ slot < slotCount, m.slots.testBit slot = true ∧ slot * wordSize = offset := by
  simp only [offsets, List.mem_map, List.mem_filter, List.mem_range, and_assoc]

theorem offsets_nodup (m : PointerMap) : m.offsets.Nodup := by
  refine (List.Pairwise.filter _ List.nodup_range).map _ ?_
  intro a b hab
  simp only [wordSize]
  omega

theorem add_wordSize_le_extent (h : offset ∈ m.offsets) : offset + wordSize ≤ m.extent := by
  obtain ⟨slot, _, hbit, rfl⟩ := mem_offsets.1 h
  have hpow : 2 ^ slot ≤ m.slots := Nat.ge_two_pow_of_testBit hbit
  have hne : m.slots ≠ 0 := by
    intro e
    rw [e, Nat.zero_testBit] at hbit
    cases hbit
  have hslot : slot ≤ m.slots.log2 := (Nat.le_log2 hne).2 hpow
  rw [extent, if_neg hne]
  simp only [wordSize]
  omega

theorem contains_of_mem_offsets (h : offset ∈ m.offsets) : m.contains offset = true := by
  obtain ⟨slot, hslot, hbit, rfl⟩ := mem_offsets.1 h
  have hdiv : slot * wordSize / wordSize = slot := Nat.mul_div_cancel _ (by decide)
  have hmod : slot * wordSize % wordSize = 0 := Nat.mul_mod_left _ _
  simp only [contains, hdiv, hmod, hslot, hbit, decide_true, beq_self_eq_true, Bool.and_self]

end PointerMap

/-! ## Registered types -/

structure TypeRecord.Checked (t : TypeRecord) : Prop where
  pointers : t.pointers.extent ≤ t.payload
  weak : ∀ w, t.weak = some w → w % wordSize = 0 ∧ w + wordSize ≤ t.payload ∧ t.pointers.contains w = false

theorem TypeRecord.checked_of_check {t : TypeRecord} (h : t.check = .ok ()) : t.Checked := by
  unfold check at h
  cases hp : require (t.pointers.extent ≤ t.payload) (SetupError.pointersPastPayload t.name t.payload) with
  | error e => rw [hp] at h; cases h
  | ok u =>
    rw [hp] at h
    refine ⟨require_eq_ok.1 hp, ?_⟩
    intro w hw
    rw [hw] at h
    change t.checkWeak w = .ok () at h
    unfold checkWeak at h
    cases hin : require (w % wordSize = 0 ∧ w + wordSize ≤ t.payload) (SetupError.weakOutsidePayload t.name w) with
    | error e => rw [hin] at h; cases h
    | ok u =>
      rw [hin] at h
      have hns : (!t.pointers.contains w) = true := require_eq_ok.1 h
      exact ⟨(require_eq_ok.1 hin).1, (require_eq_ok.1 hin).2, by simpa using hns⟩

namespace Registry

theorem register_eq_ok {r r' : Registry} {t : TypeRecord} {typeId : Nat} (h : r.register t = .ok (typeId, r')) :
    t.Checked ∧ r.size < idLimit ∧ r' = ⟨r.types.push t⟩ := by
  unfold register at h
  cases hc : t.check with
  | error e => rw [hc] at h; cases h
  | ok u =>
    rw [hc] at h
    cases hs : require (r.size < idLimit) SetupError.typeTableFull with
    | error e =>
      rw [hs] at h
      cases h
    | ok v =>
      rw [hs] at h
      cases h
      exact ⟨TypeRecord.checked_of_check hc, require_eq_ok.1 hs, rfl⟩

theorem Built.checked {r : Registry} (h : Built r) : r.size ≤ idLimit ∧ ∀ t ∈ r.types, t.Checked := by
  induction h with
  | empty => exact ⟨Nat.zero_le _, fun t ht => by simp [Registry.empty] at ht⟩
  | register _ hr ih =>
    obtain ⟨hc, hs, rfl⟩ := register_eq_ok hr
    refine ⟨?_, ?_⟩
    · simp only [size, Array.size_push] at hs ⊢
      omega
    · intro t ht
      rcases Array.mem_push.mp ht with ht | rfl
      · exact ih.2 t ht
      · exact hc

/-- The layout's answers about a type come from its record, or there is no such type. -/
theorem Built.type_cases {r : Registry} (h : Built r) (typeId : Nat) :
    (∃ t : TypeRecord, t.Checked ∧ typeId < idLimit ∧ r.layout.payload? typeId = some t.payload ∧
        r.layout.pointers typeId = t.pointers.offsets ∧ r.layout.weak? typeId = t.weak) ∨
      r.layout.payload? typeId = none ∧ r.layout.pointers typeId = [] ∧ r.layout.weak? typeId = none := by
  cases ht : r.get? typeId with
  | none => exact .inr (by simp [layout, ht])
  | some t =>
    have hlt : typeId < r.size := by
      obtain ⟨hlt, _⟩ := Array.getElem?_eq_some_iff.1 ht
      exact hlt
    exact .inl ⟨t, h.checked.2 t (Array.mem_of_getElem? ht), Nat.lt_of_lt_of_le hlt h.checked.1, by simp [layout, ht]⟩

theorem Built.sound {r : Registry} (h : Built r) : r.layout.Sound where
  typeId_lt {typeId payload} hp := by
    rcases h.type_cases typeId with ⟨_, _, hlt, _⟩ | ⟨hn, _⟩
    · exact hlt
    · rw [hn] at hp; cases hp
  field_fits {typeId offset} ho := by
    rcases h.type_cases typeId with ⟨t, ht, _, hpay, hptr, hweak⟩ | ⟨_, hptr, hweak⟩
    · refine ⟨t.payload, hpay, ?_⟩
      rw [Layout.fields, hptr, hweak, List.mem_append] at ho
      rcases ho with ho | ho
      · exact Nat.le_trans (PointerMap.add_wordSize_le_extent ho) ht.pointers
      · exact (ht.weak offset (by simpa using ho)).2.1
    · rw [Layout.fields, hptr, hweak] at ho
      cases ho
  field_aligned {typeId offset} ho := by
    rcases h.type_cases typeId with ⟨t, ht, _, _, hptr, hweak⟩ | ⟨_, hptr, hweak⟩
    · rw [Layout.fields, hptr, hweak, List.mem_append] at ho
      rcases ho with ho | ho
      · obtain ⟨slot, _, _, rfl⟩ := PointerMap.mem_offsets.1 ho
        exact Nat.mul_mod_left _ _
      · exact (ht.weak offset (by simpa using ho)).1
    · rw [Layout.fields, hptr, hweak] at ho
      cases ho
  fields_nodup typeId := by
    rcases h.type_cases typeId with ⟨t, ht, _, _, hptr, hweak⟩ | ⟨_, hptr, hweak⟩
    · rw [Layout.fields, hptr, hweak]
      refine List.nodup_append.mpr ⟨t.pointers.offsets_nodup, ?_, ?_⟩
      · cases t.weak <;> simp
      · intro a ha b hb e
        subst e
        have hw := (ht.weak a (by simpa using hb)).2.2
        rw [PointerMap.contains_of_mem_offsets ha] at hw
        cases hw
    · rw [Layout.fields, hptr, hweak]
      exact List.nodup_nil

end Registry

/-! ## Sizes -/

namespace Layout

variable {layout : Layout} {typeId size payload : Nat}

/-- An object of a known type has a size unless rounding it up leaves the range of words. -/
theorem objectSize_eq (hp : layout.payload? typeId = some payload) :
    layout.objectSize typeId =
      if headerSize + payload + wordSize < wordLimit then
        .ok ((headerSize + payload + wordSize - 1) / wordSize * wordSize)
      else .error (.overflow .add) := by
  have hround : Word.roundUp (headerSize + payload) =
      if headerSize + payload + wordSize < wordLimit then
        .ok ((headerSize + payload + wordSize - 1) / wordSize * wordSize)
      else .error .add := by
    rw [Word.roundUp, Word.alignUp, Word.add]
    split <;> rfl
  simp only [objectSize, hp, Word.add]
  by_cases hfit : headerSize + payload + wordSize < wordLimit
  · rw [if_pos hfit, if_pos (by omega)]
    simp only [bind, Except.bind, hround, if_pos hfit, Attempt.arith]
  · rw [if_neg hfit]
    by_cases hsum : headerSize + payload < wordLimit
    · rw [if_pos hsum]
      simp only [bind, Except.bind, hround, if_neg hfit, Attempt.arith]
    · rw [if_neg hsum]
      rfl

/-- The payload and its header fit the object, and its last word ends inside the address space. -/
theorem payload_of_objectSize (h : layout.objectSize typeId = .ok size) :
    ∃ payload, layout.payload? typeId = some payload ∧ headerSize + payload ≤ size ∧
      headerSize + payload + wordSize < wordLimit := by
  cases hp : layout.payload? typeId with
  | none =>
    rw [objectSize, hp] at h
    exact absurd h Attempt.refuse_ne_ok
  | some payload =>
    rw [objectSize_eq hp] at h
    split at h
    · cases h
      refine ⟨payload, rfl, ?_, ‹_›⟩
      simp only [wordSize]
      omega
    · cases h

theorem typeId_lt_of_objectSize (sound : layout.Sound) (h : layout.objectSize typeId = .ok size) :
    typeId < idLimit := by
  obtain ⟨payload, hp, _⟩ := payload_of_objectSize h
  exact sound.typeId_lt hp

/-- Payloads of a moderate size keep all objects in the range of words. -/
theorem bounded_of_payload (h : ∀ typeId payload, layout.payload? typeId = some payload →
    headerSize + payload + wordSize < wordLimit) : layout.Bounded := by
  intro typeId kind e
  cases hp : layout.payload? typeId with
  | none =>
    rw [objectSize, hp] at e
    cases e
  | some payload =>
    rw [objectSize_eq hp, if_pos (h typeId payload hp)] at e
    cases e

namespace Sound

variable {offset offset' : Nat}

theorem field_le_size (sound : layout.Sound) (ho : offset ∈ layout.fields typeId)
    (h : layout.objectSize typeId = .ok size) : headerSize + offset + wordSize ≤ size := by
  obtain ⟨payload, hp, hle, _⟩ := payload_of_objectSize h
  obtain ⟨payload', hp', hfit⟩ := sound.field_fits ho
  rw [hp] at hp'
  cases hp'
  omega

/-- Two fields of a type are the same or share no byte. -/
theorem apart (sound : layout.Sound) (h : offset ∈ layout.fields typeId) (h' : offset' ∈ layout.fields typeId)
    (ne : offset ≠ offset') : offset + wordSize ≤ offset' ∨ offset' + wordSize ≤ offset := by
  have := sound.field_aligned h
  have := sound.field_aligned h'
  simp only [wordSize] at *
  omega

/-- In a layout without overflowing sizes, the address of a field can always be formed. -/
theorem field_lt (sound : layout.Sound) (bounded : layout.Bounded) (ho : offset ∈ layout.fields typeId) :
    headerSize + offset + wordSize < wordLimit := by
  obtain ⟨payload, hp, hfit⟩ := sound.field_fits ho
  have hb := bounded typeId .add
  rw [objectSize_eq hp] at hb
  split at hb
  · omega
  · exact absurd rfl hb

end Sound

end Layout

end TxHeap
