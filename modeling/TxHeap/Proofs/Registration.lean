/-
  TxHeap.Proofs.Registration — which types a registry admits, and what it says of them ever after.

  A type is admitted just if its layout can be trusted (`TypeRecord.Trusted`): every pointer is a
  word inside the payload, and the weak one is none of the others (`submit_cases`). The bound on
  strong pointers is checked of their extent alone, which is where the last of them ends
  (`PointerMap.extent_le_iff`).

  A registry only grows at its end (`Registry.Extends`): ids are given out in order
  (`range_append_ids`), and what was said of an id is said of it after any further
  registrations (`Extends.layout`).
-/
import TxHeap.Proofs.Offsets

namespace TxHeap

/-- Every pointer slot of the map ends inside the payload just if the last one does. -/
theorem PointerMap.extent_le_iff {m : PointerMap} (fits : m.Fits) (payload : Nat) :
    m.extent ≤ payload ↔ ∀ o, m.contains o = true → o + wordSize ≤ payload := by
  constructor
  · intro le o held
    exact Nat.le_trans (add_wordSize_le_extent (mem_offsets_iff_contains.2 held)) le
  · intro inside
    rw [extent_eq fits fun p => mem_offsets_iff_contains.symm]
    cases top : m.offsets.max? with
    | none => exact Nat.zero_le _
    | some o => exact inside o (mem_offsets_iff_contains.1 (List.max?_eq_some_iff.1 top).1)

namespace TypeRecord

variable {t : TypeRecord}

/-- The payload size is a word, and the pointer map has no bits but those of slots. -/
structure Words (t : TypeRecord) : Prop where
  payload : t.payload < wordLimit
  pointers : t.pointers.Fits

/-- All pointers of the type lie in its payload, and the weak one is not among the strong ones. -/
structure Trusted (t : TypeRecord) : Prop where
  strong : ∀ o, t.pointers.contains o = true → o + wordSize ≤ t.payload
  aligned : ∀ w, t.weak = some w → w % wordSize = 0
  /-- The weak field ends where a word can say, inside the payload. -/
  inside : ∀ w, t.weak = some w → w + wordSize < wordLimit ∧ w + wordSize ≤ t.payload
  unmapped : ∀ w, t.weak = some w → t.pointers.contains w = false

theorem trusted_iff_checked (words : t.Words) : t.Trusted ↔ t.Checked := by
  have payload := words.payload
  constructor
  · intro h
    exact ⟨(PointerMap.extent_le_iff words.pointers _).2 h.strong, fun w hw => ⟨h.aligned w hw, (h.inside w hw).2, h.unmapped w hw⟩⟩
  · intro h
    refine ⟨(PointerMap.extent_le_iff words.pointers _).1 h.pointers, fun w hw => (h.weak w hw).1, fun w hw => ?_,
      fun w hw => (h.weak w hw).2.2⟩
    have inside := (h.weak w hw).2.1
    exact ⟨Nat.lt_of_le_of_lt inside payload, inside⟩

theorem check_of_checked (h : t.Checked) : t.check = .ok () := by
  have extent : require (t.pointers.extent ≤ t.payload) (SetupError.pointersPastPayload t.name t.payload) = .ok () :=
    require_eq_ok.2 h.pointers
  rw [check, extent]
  cases hw : t.weak with
  | none => rfl
  | some w =>
    obtain ⟨aligned, inside, unmapped⟩ := h.weak w hw
    have word : require (w % wordSize = 0 ∧ w + wordSize ≤ t.payload) (SetupError.weakOutsidePayload t.name w) = .ok () :=
      require_eq_ok.2 ⟨aligned, inside⟩
    have apart : require ((!t.pointers.contains w) = true) (SetupError.weakIsStrong t.name w) = .ok () :=
      require_eq_ok.2 (by rw [unmapped]; rfl)
    show t.checkWeak w = .ok ()
    rw [checkWeak, word]
    exact apart

end TypeRecord

def Layout.Alike (layout layout' : Layout) (typeId : Nat) : Prop :=
  layout.payload? typeId = layout'.payload? typeId ∧ layout.pointers typeId = layout'.pointers typeId ∧
    layout.weak? typeId = layout'.weak? typeId

namespace Registry

variable {r r' : Registry} {t : TypeRecord} {ts : List TypeRecord} {typeId : Nat}

/-- The answer to a registration, and the table afterwards; a type that is refused leaves it as it was. -/
def submit (r : Registry) (t : TypeRecord) : Except SetupError Nat × Registry :=
  match r.register t with
  | .ok (typeId, r') => (.ok typeId, r')
  | .error e => (.error e, r)

def submitAll (r : Registry) : List TypeRecord → List (Except SetupError Nat) × Registry
  | [] => ([], r)
  | t :: ts =>
    let (answer, r) := r.submit t
    let (answers, r) := r.submitAll ts
    (answer :: answers, r)

def Extends (r r' : Registry) : Prop := ∀ typeId t, r.get? typeId = some t → r'.get? typeId = some t

structure Describes (r : Registry) (typeId : Nat) (t : TypeRecord) : Prop where
  payload : r.layout.payload? typeId = some t.payload
  weak : r.layout.weak? typeId = t.weak
  ascending : (r.layout.pointers typeId).Pairwise (· < ·)
  mem_pointers : ∀ o, o ∈ r.layout.pointers typeId ↔ t.pointers.contains o = true

structure Reliable (r : Registry) : Prop where
  ascending : ∀ typeId, (r.layout.pointers typeId).Pairwise (· < ·)
  unmapped : ∀ typeId w, r.layout.weak? typeId = some w → w ∉ r.layout.pointers typeId
  inside : ∀ typeId o, o ∈ r.layout.pointers typeId ∨ r.layout.weak? typeId = some o →
    ∃ payload, r.layout.payload? typeId = some payload ∧ o + wordSize ≤ payload
  /-- Nothing is said of an id that was not given out. -/
  unknown : ∀ typeId, r.size ≤ typeId →
    r.layout.payload? typeId = none ∧ r.layout.weak? typeId = none ∧ r.layout.pointers typeId = []

/-! ## One registration -/

theorem register_of_checked (checked : t.Checked) (room : r.size < idLimit) :
    r.register t = .ok (r.size, ⟨r.types.push t⟩) := by
  have free : require (r.size < idLimit) SetupError.typeTableFull = .ok () := require_eq_ok.2 room
  rw [register, TypeRecord.check_of_checked checked, free]
  rfl

/-- A type is refused, or it gets the next id. -/
theorem submit_eq (r : Registry) (t : TypeRecord) :
    (t.Checked ∧ r.size < idLimit) ∧ r.submit t = (.ok r.size, ⟨r.types.push t⟩) ∨
      ¬ (t.Checked ∧ r.size < idLimit) ∧ ∃ e, r.submit t = (.error e, r) := by
  unfold submit
  cases h : r.register t with
  | ok admitted =>
    obtain ⟨checked, room, -⟩ := register_eq_ok h
    rw [register_of_checked checked room] at h
    cases h
    exact .inl ⟨⟨checked, room⟩, rfl⟩
  | error e =>
    refine .inr ⟨fun fit => ?_, e, rfl⟩
    rw [register_of_checked fit.1 fit.2] at h
    cases h

/-- While there is room for an id, a type is admitted just if it can be trusted. -/
theorem submit_cases (words : t.Words) (room : r.size < idLimit) :
    t.Trusted ∧ r.submit t = (.ok r.size, ⟨r.types.push t⟩) ∨ ¬ t.Trusted ∧ ∃ e, r.submit t = (.error e, r) := by
  rw [TypeRecord.trusted_iff_checked words]
  exact (submit_eq r t).imp (fun h => ⟨h.1.1, h.2⟩) fun h => ⟨fun checked => h.1 ⟨checked, room⟩, h.2⟩

/-! ## Any number of registrations -/

theorem Extends.refl (r : Registry) : r.Extends r := fun _ _ h => h

theorem Extends.trans {r'' : Registry} (h : r.Extends r') (h' : r'.Extends r'') : r.Extends r'' :=
  fun typeId t known => h' typeId t (h typeId t known)

theorem get?_push (r : Registry) (t : TypeRecord) (typeId : Nat) :
    Registry.get? ⟨r.types.push t⟩ typeId = if typeId = r.size then some t else r.get? typeId :=
  Array.getElem?_push

theorem extends_push (r : Registry) (t : TypeRecord) : r.Extends ⟨r.types.push t⟩ := by
  intro typeId known h
  obtain ⟨lt, -⟩ := Array.getElem?_eq_some_iff.1 h
  have old : typeId ≠ r.size := Nat.ne_of_lt lt
  rw [get?_push, if_neg old, h]

theorem extends_submit (r : Registry) (t : TypeRecord) : r.Extends (r.submit t).2 := by
  obtain ⟨-, h⟩ | ⟨-, e, h⟩ := submit_eq r t
  · rw [h]
    exact extends_push r t
  · rw [h]
    exact .refl r

theorem extends_submitAll (ts : List TypeRecord) (r : Registry) : r.Extends (r.submitAll ts).2 := by
  induction ts generalizing r with
  | nil => exact .refl r
  | cons t ts ih => exact (extends_submit r t).trans (ih _)

theorem Built.submit (built : r.Built) (t : TypeRecord) : (r.submit t).2.Built := by
  unfold Registry.submit
  cases h : r.register t with
  | ok admitted => exact .register built h
  | error e => exact built

theorem Built.submitAll (built : r.Built) (ts : List TypeRecord) : (r.submitAll ts).2.Built := by
  induction ts generalizing r with
  | nil => exact built
  | cons t ts ih => exact ih (built.submit t)

/-- Ids are given out in order, starting where the table ends. -/
theorem range_append_ids (ts : List TypeRecord) (r : Registry) :
    List.range r.size ++ (r.submitAll ts).1.filterMap Except.toOption = List.range (r.submitAll ts).2.size := by
  induction ts generalizing r with
  | nil => exact List.append_nil _
  | cons t ts ih =>
    have rest := ih (r.submit t).2
    show List.range r.size ++ ((r.submit t).1 :: ((r.submit t).2.submitAll ts).1).filterMap Except.toOption =
      List.range ((r.submit t).2.submitAll ts).2.size
    obtain ⟨-, h⟩ | ⟨-, e, h⟩ := submit_eq r t
    · have longer : Registry.size ⟨r.types.push t⟩ = r.size + 1 := Array.size_push ..
      rw [h] at rest ⊢
      rw [← rest, longer, List.range_succ, List.append_assoc]
      rfl
    · rw [h] at rest ⊢
      exact rest

/-! ## What a registry says -/

theorem layout_congr (same : r'.get? typeId = r.get? typeId) : r'.layout.Alike r.layout typeId := by
  simp only [Layout.Alike, layout, same, and_self]

/-- What is said of a known type is said after further registrations. -/
theorem Extends.layout (h : r.Extends r') (known : typeId < r.size) : r'.layout.Alike r.layout typeId := by
  have found : r.get? typeId = some r.types[typeId] := Array.getElem?_eq_getElem known
  exact layout_congr ((h typeId _ found).trans found.symm)

theorem describes_of_get? (h : r.get? typeId = some t) : r.Describes typeId t := by
  have pointers : r.layout.pointers typeId = t.pointers.offsets := by simp [Registry.layout, h]
  refine ⟨by simp [Registry.layout, h], by simp [Registry.layout, h], ?_, ?_⟩
  · rw [pointers]
    exact t.pointers.offsets_ascending
  · rw [pointers]
    exact fun o => PointerMap.mem_offsets_iff_contains

theorem Built.reliable (built : r.Built) : r.Reliable where
  ascending typeId := by
    cases known : r.get? typeId with
    | none => simp [Registry.layout, known]
    | some t => exact (describes_of_get? known).ascending
  unmapped typeId w weak mapped :=
    (List.nodup_append.1 (built.sound.fields_nodup typeId)).2.2 w mapped w (Option.mem_toList.2 weak) rfl
  inside typeId o field := by
    refine built.sound.field_fits ?_
    rw [Layout.fields, List.mem_append, Option.mem_toList]
    exact field
  unknown typeId beyond := by
    have found : r.get? typeId = none := Array.getElem?_eq_none beyond
    simp [Registry.layout, found]

/-- A registry admits just the types that can be trusted, numbers them in order, and stays with what it has said of them. -/
theorem admits_trusted_types (before after : List TypeRecord) (t : TypeRecord) (words : t.Words)
    (room : (empty.submitAll before).2.size < idLimit) :
    let r := (empty.submitAll before).2
    let s := (r.submit t).2
    let last := (s.submitAll after).2
    ((∃ typeId, (r.submit t).1 = .ok typeId) ↔ t.Trusted) ∧
      (t.Trusted → (r.submit t).1 = .ok r.size ∧ last.Describes r.size t) ∧
      (¬ t.Trusted → s = r) ∧
      (empty.submitAll before).1.filterMap Except.toOption = List.range r.size ∧
      (∀ typeId < s.size, last.layout.Alike s.layout typeId) ∧
      last.Reliable := by
  intro r s last
  have later : s.Extends last := extends_submitAll after s
  have reliable : last.Reliable := (((Built.empty.submitAll before).submit t).submitAll after).reliable
  have ids := range_append_ids before empty
  obtain ⟨trusted, h⟩ | ⟨untrusted, e, h⟩ := submit_cases words room
  · have answer : (r.submit t).1 = .ok r.size := congrArg Prod.fst h
    have table : s = ⟨r.types.push t⟩ := congrArg Prod.snd h
    have entered : s.get? r.size = some t := by rw [table, get?_push, if_pos rfl]
    exact ⟨⟨fun _ => trusted, fun _ => ⟨_, answer⟩⟩, fun _ => ⟨answer, describes_of_get? (later _ _ entered)⟩,
      fun untrusted => absurd trusted untrusted, ids, fun _ => later.layout, reliable⟩
  · have answer : (r.submit t).1 = .error e := congrArg Prod.fst h
    have table : s = r := congrArg Prod.snd h
    refine ⟨⟨?_, fun trusted => absurd trusted untrusted⟩, fun trusted => absurd trusted untrusted, fun _ => table, ids,
      fun _ => later.layout, reliable⟩
    rw [answer]
    exact nofun

/-- Between a type whose weak field would wrap and one with a pointer past its payload, one with two pointers and a weak field
    between them; it is the second that is admitted. -/
theorem admits_trusted_types_among_refused :
    let node : TypeRecord := ⟨"node", 24, ⟨5⟩, some 8⟩
    let wrapping : TypeRecord := ⟨"wrapping", 8, .empty, some 0xfffffffffffffff8⟩
    let short : TypeRecord := ⟨"short", 8, ⟨2⟩, none⟩
    let leaf : TypeRecord := ⟨"leaf", 3, .empty, none⟩
    let r := (empty.submitAll [leaf, wrapping]).2
    let last := (empty.submitAll [leaf, wrapping, node, short, node]).2
    node.Words ∧ r.size < idLimit ∧ node.Trusted ∧ (r.submit node).1 = .ok 1 ∧ last.Describes 1 node ∧
      last.layout.pointers 1 = [0, 16] ∧ last.Reliable ∧ last.size = 3 := by
  intro node wrapping short leaf r last
  have words : node.Words := ⟨by decide, by decide⟩
  have room : r.size < idLimit := by decide
  obtain ⟨admitted, trusted, -, -, -, reliable⟩ := admits_trusted_types [leaf, wrapping] [short, node] node words room
  have ok : node.Trusted := admitted.1 ⟨1, by decide⟩
  exact ⟨words, room, ok, (trusted ok).1, (trusted ok).2, by decide, reliable, by decide⟩

end Registry

end TxHeap
