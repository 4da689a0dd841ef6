/-
  TxHeap.Proofs.Record — objects as a run knows them, and arenas that agree.

  A record is what a run has done with one object: where it lies and of which type, what it
  is (`Kind`), the bytes it was born with, and every store to it since, in order. From these
  follow the header the object must have (`Record.header`) and the bytes its body must hold
  (`Record.content`).

  `Arena.Places` says that the recorded objects lie in the arena without overlapping, and
  `Arena.Keeps` that memory holds exactly the recorded headers and bodies. An arena goes on
  keeping its records when bytes are handed out (`Keeps.grow`), when an object is added
  (`Keeps.add`) and when one object is changed (`Keeps.change`). A new object is blank
  because nothing was ever written past the free pointer (`Arena.Blank`).
-/
import TxHeap.Call.CopyOnWrite
import TxHeap.Proofs.Headers
import TxHeap.Proofs.Types

namespace TxHeap

inductive Store where
  | word (offset value : Nat)
  /-- The whole body is overwritten. -/
  | body (bytes : List UInt8)
  deriving DecidableEq, Repr

def Store.apply (bytes : List UInt8) : Store → List UInt8
  | .word offset value => overlay bytes offset (Word.toBytes value)
  | .body new => new

inductive Kind where
  /-- A private object that is no copy. -/
  | fresh
  /-- A private object that was promoted to a twin. -/
  | moved (twin : Nat)
  /-- The working copy of a shared object. -/
  | copyOf (root : Nat)
  /-- A shared object; it is `whole` unless it is a twin whose preparation failed. -/
  | shared (whole copied : Bool)
  deriving DecidableEq, Repr

structure Record where
  addr : Nat
  typeId : Nat
  /-- Bytes of the object, header included. -/
  size : Nat
  kind : Kind
  /-- The body at the object's birth. -/
  initial : List UInt8
  /-- The stores to the body since, the oldest first. -/
  stores : List Store
  deriving DecidableEq, Repr

namespace Record

def stop (r : Record) : Nat := r.addr + r.size

/-- Everything behind the header: the payload, and what rounds it up to whole words. -/
def bodyAddr (r : Record) : Nat := r.addr + headerSize

def bodySize (r : Record) : Nat := r.size - headerSize

def header (r : Record) : Header :=
  match r.kind with
  | .fresh => .new r.typeId 0
  | .moved twin => (Header.new r.typeId 0).setVersion (.forwarded twin)
  | .copyOf root => Action.copyHeader r.typeId root
  | .shared _ false => .new r.typeId Flag.global
  | .shared _ true => (Header.new r.typeId Flag.global).markCopied

def content (r : Record) : List UInt8 := r.stores.foldl Store.apply r.initial

def word (r : Record) (offset : Nat) : Nat := wordAt r.content offset

def push (r : Record) (store : Store) : Record := { r with stores := r.stores ++ [store] }

def mark (r : Record) : Record :=
  match r.kind with
  | .shared whole _ => { r with kind := .shared whole true }
  | _ => r

def blank (kind : Kind) (addr typeId size : Nat) : Record :=
  ⟨addr, typeId, size, kind, List.replicate (size - headerSize) 0, []⟩

def pair? (r : Record) : Option (Nat × Nat) :=
  match r.kind with
  | .copyOf root => some (root, r.addr)
  | _ => none

@[simp] theorem push_addr (r : Record) (st : Store) : (r.push st).addr = r.addr := rfl
@[simp] theorem push_header (r : Record) (st : Store) : (r.push st).header = r.header := rfl

@[simp] theorem push_content (r : Record) (st : Store) : (r.push st).content = st.apply r.content := by
  simp only [push, content, List.foldl_append, List.foldl_cons, List.foldl_nil]

theorem mark_shape (r : Record) :
    r.mark.addr = r.addr ∧ r.mark.typeId = r.typeId ∧ r.mark.size = r.size ∧ r.mark.content = r.content := by
  unfold mark
  split <;> exact ⟨rfl, rfl, rfl, rfl⟩

@[simp] theorem header_typeId (r : Record) : r.header.typeId = r.typeId := by
  unfold header
  split <;> rfl

theorem header_fits {r : Record} (hty : r.typeId < idLimit)
    (hslot : ∀ a, r.kind = .copyOf a ∨ r.kind = .moved a → a < wordLimit) : r.header.Fits := by
  have plain : (Header.new r.typeId 0).Fits := Header.fits_new hty (by decide)
  have shared : (Header.new r.typeId Flag.global).Fits := Header.fits_new hty (by decide)
  unfold header
  split
  · exact plain
  · exact Header.fits_setVersion plain fun _ e => Option.some.inj e ▸ hslot _ (.inr ‹_›)
  · exact Header.fits_setVersion plain fun _ e => Option.some.inj e ▸ hslot _ (.inl ‹_›)
  · exact shared
  · exact Header.fits_markCopied shared

end Record

structure Record.Alike (r r' : Record) : Prop where
  addr : r'.addr = r.addr
  typeId : r'.typeId = r.typeId
  size : r'.size = r.size
  header : r'.header = r.header
  content : r'.content = r.content

def amend (rs : List Record) (addr : Nat) (change : Record → Record) : List Record :=
  rs.map fun r => if r.addr = addr then change r else r

namespace Arena

/-- Nothing was ever written past the free pointer. -/
def Blank (a : Arena) : Prop := ∀ addr, a.freePointer ≤ addr → a.memory.get addr = 0

structure Places (a : Arena) (layout : Layout) (rs : List Record) : Prop where
  sized : ∀ r ∈ rs, layout.objectSize r.typeId = .ok r.size
  inside : ∀ r ∈ rs, a.start ≤ r.addr ∧ r.stop ≤ a.freePointer
  apart : rs.Pairwise fun r r' => r.stop ≤ r'.addr ∨ r'.stop ≤ r.addr

structure Keeps (a : Arena) (layout : Layout) (rs : List Record) : Prop extends a.Places layout rs where
  header : ∀ r ∈ rs, a.memory.headerAt r.addr = r.header
  body : ∀ r ∈ rs, a.memory.read r.bodyAddr r.bodySize = r.content

variable {a b : Arena} {layout : Layout} {rs : List Record} {r r' : Record} {m : Memory} {size : Nat}

/-! ## Blank -/

theorem Blank.grow (h : a.Blank) (g : a.Grew b size) : b.Blank := fun addr hb => by
  rw [g.freePointer] at hb
  rw [g.memory]
  exact h addr (by omega)

/-- Stores below the free pointer leave the rest blank. -/
theorem Blank.store (h : a.Blank) (same : ∀ addr, a.freePointer ≤ addr → m.get addr = a.memory.get addr) :
    { a with memory := m }.Blank := fun addr ha => (same addr ha).trans (h addr ha)

/-! ## Places -/

namespace Places

theorem headerSize_le (h : a.Places layout rs) (hr : r ∈ rs) : headerSize ≤ r.size :=
  layout.headerSize_le_objectSize (h.sized r hr)

theorem apart_of_ne (h : a.Places layout rs) (hr : r ∈ rs) (hr' : r' ∈ rs) (ne : r ≠ r') :
    r.stop ≤ r'.addr ∨ r'.stop ≤ r.addr := by
  obtain ⟨i, hi, rfl⟩ := List.getElem_of_mem hr
  obtain ⟨j, hj, rfl⟩ := List.getElem_of_mem hr'
  have hp := List.pairwise_iff_getElem.1 h.apart
  rcases Nat.lt_trichotomy i j with hij | hij | hij
  · exact hp i j hi hj hij
  · subst hij
    exact absurd rfl ne
  · exact (hp j i hj hi hij).symm

/-- An object is found by its address. -/
theorem eq_of_addr (h : a.Places layout rs) (hr : r ∈ rs) (hr' : r' ∈ rs) (e : r.addr = r'.addr) : r = r' := by
  by_cases ne : r = r'
  · exact ne
  · have h1 := h.headerSize_le hr
    have h2 := h.headerSize_le hr'
    rcases h.apart_of_ne hr hr' ne with hs | hs <;> simp only [Record.stop, headerSize, wordSize] at * <;> omega

theorem nodup (h : a.Places layout rs) : rs.Nodup :=
  h.apart.imp_of_mem fun {r r'} hr _ apart e => by
    subst e
    have := h.headerSize_le hr
    simp only [Record.stop, headerSize, wordSize] at *
    omega

theorem addr_nodup (h : a.Places layout rs) : (rs.map Record.addr).Nodup := by
  rw [List.Nodup, List.pairwise_map]
  exact h.nodup.imp_of_mem fun hr hr' ne e => ne (h.eq_of_addr hr hr' e)

theorem addr_pos (h : a.Places layout rs) (hr : r ∈ rs) : 0 < r.addr :=
  Nat.lt_of_lt_of_le a.start_pos (h.inside r hr).1

theorem stop_lt (h : a.Places layout rs) (hr : r ∈ rs) : r.stop < wordLimit :=
  Nat.lt_of_le_of_lt (h.inside r hr).2 a.freePointer_lt

/-- Any part of an object may be accessed. -/
theorem spans {k len : Nat} (h : a.Places layout rs) (hr : r ∈ rs) (fit : k + len ≤ r.size) :
    a.Spans (r.addr + k) len := by
  have := h.inside r hr
  simp only [Spans, Record.stop] at *
  omega

theorem header_spans (h : a.Places layout rs) (hr : r ∈ rs) : a.Spans r.addr headerSize :=
  h.spans (k := 0) hr (by have := h.headerSize_le hr; omega)

theorem contains (h : a.Places layout rs) (hr : r ∈ rs) : a.contains r.addr = true := by
  have := h.inside r hr
  have := h.headerSize_le hr
  rw [contains_iff]
  simp only [Record.stop, headerSize, wordSize] at *
  omega

theorem grow (h : a.Places layout rs) (g : a.Grew b size) : b.Places layout rs where
  sized := h.sized
  inside r hr := by
    have := h.inside r hr
    rw [g.start, g.freePointer]
    omega
  apart := h.apart

/-- Places are a matter of where objects lie, not of what memory holds. -/
theorem of_shape {rs' : List Record} (h : a.Places layout rs) (hstart : b.start = a.start)
    (hfree : b.freePointer = a.freePointer)
    (shape : rs'.map (fun r => (r.addr, r.typeId, r.size)) = rs.map fun r => (r.addr, r.typeId, r.size)) :
    b.Places layout rs' := by
  have hmem : ∀ r' ∈ rs', ∃ r ∈ rs, r.addr = r'.addr ∧ r.typeId = r'.typeId ∧ r.size = r'.size := by
    intro r' hr'
    have hin := List.mem_map_of_mem (f := fun r : Record => (r.addr, r.typeId, r.size)) hr'
    rw [shape] at hin
    obtain ⟨r, hr, e⟩ := List.mem_map.1 hin
    simp only [Prod.mk.injEq] at e
    exact ⟨r, hr, e⟩
  refine ⟨?_, ?_, ?_⟩
  · intro r' hr'
    obtain ⟨r, hr, -, hty, hsz⟩ := hmem r' hr'
    rw [← hty, ← hsz]
    exact h.sized r hr
  · intro r' hr'
    obtain ⟨r, hr, haddr, -, hsz⟩ := hmem r' hr'
    have := h.inside r hr
    rw [Record.stop, haddr, hsz] at this
    rw [hstart, hfree]
    exact this
  · have key : ∀ l : List Record, (l.Pairwise fun r r' => r.stop ≤ r'.addr ∨ r'.stop ≤ r.addr) ↔
        (l.map fun r => (r.addr, r.typeId, r.size)).Pairwise
          fun x y => x.1 + x.2.2 ≤ y.1 ∨ y.1 + y.2.2 ≤ x.1 := fun l => by
      rw [List.pairwise_map]
      exact Iff.rfl
    rw [key, shape, ← key]
    exact h.apart

end Places

/-! ## Keeps -/

namespace Keeps

theorem header_eq (h : a.Keeps layout rs) (hr : r ∈ rs) : a.header r.addr = .ok r.header :=
  header_eq_ok.2 ⟨h.header_spans hr, h.header r hr⟩

theorem length_content (h : a.Keeps layout rs) (hr : r ∈ rs) : r.content.length = r.bodySize := by
  rw [← h.body r hr, Memory.length_read]

/-- A field of a kept object holds the word of its content. -/
theorem readWord_eq {offset : Nat} (h : a.Keeps layout rs) (hr : r ∈ rs)
    (fit : headerSize + offset + wordSize ≤ r.size) :
    a.memory.readWord (r.addr + (headerSize + offset)) = wordAt r.content offset := by
  rw [← h.body r hr, Memory.wordAt_read (by simp only [Record.bodySize]; omega), Record.bodyAddr, Nat.add_assoc]

theorem nil (a : Arena) (layout : Layout) : a.Keeps layout [] where
  sized := nofun
  inside := nofun
  apart := .nil
  header := nofun
  body := nofun

theorem grow (h : a.Keeps layout rs) (g : a.Grew b size) : b.Keeps layout rs where
  toPlaces := h.toPlaces.grow g
  header r hr := by rw [g.memory, h.header r hr]
  body r hr := by rw [g.memory, h.body r hr]

/-- A kept object whose bytes nobody touched is still as recorded. -/
theorem untouched (h : a.Keeps layout rs) (hr : r ∈ rs)
    (same : ∀ i, r.addr ≤ i → i < r.stop → m.get i = a.memory.get i) :
    m.headerAt r.addr = r.header ∧ m.read r.bodyAddr r.bodySize = r.content := by
  have size := h.headerSize_le hr
  refine ⟨?_, ?_⟩
  · rw [← h.header r hr]
    exact Memory.headerAt_congr fun i hl hu => same i hl (by simp only [Record.stop]; omega)
  · rw [← h.body r hr]
    refine Memory.read_congr fun i hl hu => same i ?_ ?_ <;>
      simp only [Record.bodyAddr, Record.bodySize, Record.stop] at * <;> omega

/-- A new object, in room that no other object takes. -/
theorem add (h : a.Keeps layout rs) (sized : layout.objectSize r.typeId = .ok r.size) (room : a.Spans r.addr r.size)
    (apart : ∀ r' ∈ rs, r'.stop ≤ r.addr ∨ r.stop ≤ r'.addr)
    (out : ∀ i, i < r.addr ∨ r.stop ≤ i → m.get i = a.memory.get i)
    (header : m.headerAt r.addr = r.header) (body : m.read r.bodyAddr r.bodySize = r.content) :
    { a with memory := m }.Keeps layout (rs ++ [r]) := by
  have kept : ∀ r' ∈ rs, m.headerAt r'.addr = r'.header ∧ m.read r'.bodyAddr r'.bodySize = r'.content :=
    fun r' hr' => h.untouched hr' fun i _ _ => out i (by have := apart r' hr'; omega)
  refine ⟨⟨?_, ?_, ?_⟩, ?_, ?_⟩
  · intro r' hr'
    rcases List.mem_append.mp hr' with hr' | hr'
    · exact h.sized r' hr'
    · rw [List.mem_singleton.mp hr']
      exact sized
  · intro r' hr'
    rcases List.mem_append.mp hr' with hr' | hr'
    · exact h.inside r' hr'
    · rw [List.mem_singleton.mp hr']
      exact room
  · refine List.pairwise_append.mpr ⟨h.apart, List.pairwise_singleton _ _, ?_⟩
    intro r' hr' s hs
    rw [List.mem_singleton.mp hs]
    exact apart r' hr'
  · intro r' hr'
    rcases List.mem_append.mp hr' with hr' | hr'
    · exact (kept r' hr').1
    · rw [List.mem_singleton.mp hr']
      exact header
  · intro r' hr'
    rcases List.mem_append.mp hr' with hr' | hr'
    · exact (kept r' hr').2
    · rw [List.mem_singleton.mp hr']
      exact body

/-- A new object at the free pointer. -/
theorem push (h : a.Keeps layout rs) (g : a.Grew b r.size) (addr : r.addr = a.freePointer)
    (sized : layout.objectSize r.typeId = .ok r.size)
    (out : ∀ i, i < r.addr ∨ r.stop ≤ i → m.get i = b.memory.get i)
    (header : m.headerAt r.addr = r.header) (body : m.read r.bodyAddr r.bodySize = r.content) :
    { b with memory := m }.Keeps layout (rs ++ [r]) := by
  refine (h.grow g).add sized ?_ (fun r' hr' => .inl ?_) out header body
  · rw [addr]
    exact spans_of_grew g (Nat.le_refl _)
  · rw [addr]
    exact (h.inside r' hr').2

/-- A new object of which nothing but the header is written. -/
theorem place {typeId obj : Nat} {h : Header} (keeps : a.Keeps layout rs) (kind : Kind) (blank : a.Blank)
    (sized : layout.objectSize typeId = .ok size) (fits : h.Fits)
    (header : (Record.blank kind obj typeId size).header = h) (hp : a.place size h = .ok (obj, b)) :
    b.Keeps layout (rs ++ [.blank kind obj typeId size]) ∧ b.Blank := by
  obtain ⟨grown, ha, spans, rfl⟩ := place_eq_ok hp
  obtain ⟨rfl, g⟩ := grew_of_allocate ha
  have free := g.freePointer
  have hsize := layout.headerSize_le_objectSize sized
  have out : ∀ i, i < a.freePointer ∨ a.freePointer + headerSize ≤ i →
      (grown.memory.setHeaderAt a.freePointer h).get i = grown.memory.get i :=
    fun i hi => Memory.get_setHeaderAt_of_apart hi
  refine ⟨keeps.push g rfl sized (fun i hi => out i ?_) ?_ ?_, (blank.grow g).store fun i hi => out i (.inr (by omega))⟩
  · simp only [Record.stop, Record.blank] at hi
    omega
  · rw [header]
    exact Memory.headerAt_setHeaderAt fits
  · refine Memory.read_eq_zeros ?_
    intro i hl _
    simp only [Record.bodyAddr, Record.blank] at hl
    rw [out i (.inr hl), g.memory]
    exact blank i (by omega)

/-- One object changes, inside its own bytes. -/
theorem change (h : a.Keeps layout rs) (hr : r ∈ rs) {g : Record → Record}
    (shape : (g r).addr = r.addr ∧ (g r).typeId = r.typeId ∧ (g r).size = r.size)
    (out : ∀ i, i < r.addr ∨ r.stop ≤ i → m.get i = a.memory.get i)
    (header : m.headerAt r.addr = (g r).header) (body : m.read r.bodyAddr r.bodySize = (g r).content) :
    { a with memory := m }.Keeps layout (amend rs r.addr g) := by
  have only : ∀ r' ∈ rs, r'.addr = r.addr → r' = r := fun r' hr' e => h.eq_of_addr hr' hr e
  have each : ∀ r' ∈ rs, m.headerAt r'.addr = (if r'.addr = r.addr then g r' else r').header ∧
      m.read r'.bodyAddr r'.bodySize = (if r'.addr = r.addr then g r' else r').content := by
    intro r' hr'
    by_cases e : r'.addr = r.addr
    · rw [if_pos e, only r' hr' e]
      exact ⟨header, body⟩
    · rw [if_neg e]
      refine h.untouched hr' fun i hl hu => out i ?_
      rcases h.apart_of_ne hr' hr fun e' => e (by rw [e']) with hs | hs <;> omega
  have same : ∀ r' ∈ rs, (if r'.addr = r.addr then g r' else r').addr = r'.addr ∧
      (if r'.addr = r.addr then g r' else r').typeId = r'.typeId ∧
      (if r'.addr = r.addr then g r' else r').size = r'.size := by
    intro r' hr'
    by_cases e : r'.addr = r.addr
    · rw [if_pos e, only r' hr' e]
      exact shape
    · rw [if_neg e]
      exact ⟨rfl, rfl, rfl⟩
  refine ⟨h.toPlaces.of_shape rfl rfl ?_, ?_, ?_⟩
  · rw [amend, List.map_map]
    refine List.map_congr_left ?_
    intro r' hr'
    simp only [Function.comp_apply, same r' hr']
  · intro s hs
    obtain ⟨r', hr', rfl⟩ := List.mem_map.1 hs
    rw [(same r' hr').1]
    exact (each r' hr').1
  · intro s hs
    obtain ⟨r', hr', rfl⟩ := List.mem_map.1 hs
    rw [Record.bodyAddr, Record.bodySize, (same r' hr').1, (same r' hr').2.2]
    exact (each r' hr').2

/-- A word is stored to the body of one object. -/
theorem storeWord {offset v : Nat} (h : a.Keeps layout rs) (hr : r ∈ rs)
    (fit : headerSize + offset + wordSize ≤ r.size) :
    { a with memory := a.memory.writeWord (r.addr + (headerSize + offset)) v }.Keeps layout
      (amend rs r.addr (·.push (.word offset v))) := by
  refine h.change hr ⟨rfl, rfl, rfl⟩ ?_ ?_ ?_
  · intro i hi
    exact Memory.get_writeWord_of_apart (by simp only [Record.stop] at hi; omega)
  · rw [Record.push_header, ← h.header r hr]
    exact Memory.headerAt_congr fun i _ hu => Memory.get_writeWord_of_apart (by omega)
  · rw [Record.push_content, ← h.body r hr, ← Nat.add_assoc, ← Record.bodyAddr]
    exact Memory.read_writeWord_overlay (by simp only [Record.bodySize]; omega)

/-- The whole body of one object is overwritten. -/
theorem storeBody {bytes : List UInt8} (h : a.Keeps layout rs) (hr : r ∈ rs) (len : bytes.length = r.bodySize) :
    { a with memory := a.memory.write r.bodyAddr bytes }.Keeps layout
      (amend rs r.addr (·.push (.body bytes))) := by
  have size := h.headerSize_le hr
  refine h.change hr ⟨rfl, rfl, rfl⟩ ?_ ?_ ?_
  · intro i hi
    refine Memory.get_write_of_apart ?_
    rw [len]
    simp only [Record.stop, Record.bodyAddr, Record.bodySize] at *
    omega
  · rw [Record.push_header, ← h.header r hr]
    exact Memory.headerAt_congr fun i _ hu => Memory.get_write_of_apart (.inl (by rw [Record.bodyAddr]; omega))
  · rw [Record.push_content, ← len]
    exact Memory.read_write _ _ _

/-- One object gets another header. -/
theorem setHeader {g : Record → Record} (h : a.Keeps layout rs) (hr : r ∈ rs)
    (shape : (g r).addr = r.addr ∧ (g r).typeId = r.typeId ∧ (g r).size = r.size ∧ (g r).content = r.content)
    (fits : (g r).header.Fits) :
    { a with memory := a.memory.setHeaderAt r.addr (g r).header }.Keeps layout (amend rs r.addr g) := by
  have size := h.headerSize_le hr
  refine h.change hr ⟨shape.1, shape.2.1, shape.2.2.1⟩ ?_ ?_ ?_
  · intro i hi
    exact Memory.get_setHeaderAt_of_apart (by simp only [Record.stop] at hi; omega)
  · exact Memory.headerAt_setHeaderAt fits
  · rw [shape.2.2.2, ← h.body r hr]
    exact Memory.read_congr fun i hl _ => Memory.get_setHeaderAt_of_apart (.inr (by rw [Record.bodyAddr] at hl; exact hl))

/-- Keeping is a matter of what the records say, not of how they came to say it. -/
theorem of_alike {rs' : List Record} (h : a.Keeps layout rs) (alike : ∀ r' ∈ rs', ∃ r ∈ rs, r.Alike r')
    (distinct : (rs'.map Record.addr).Nodup) : a.Keeps layout rs' where
  sized r' hr' := by
    obtain ⟨r, hr, e⟩ := alike r' hr'
    rw [e.typeId, e.size]
    exact h.sized r hr
  inside r' hr' := by
    obtain ⟨r, hr, e⟩ := alike r' hr'
    have := h.inside r hr
    rw [Record.stop, e.addr, e.size]
    exact this
  apart := by
    rw [List.Nodup, List.pairwise_map] at distinct
    refine distinct.imp_of_mem fun {r₁ r₂} h₁ h₂ ne => ?_
    obtain ⟨s₁, hs₁, e₁⟩ := alike r₁ h₁
    obtain ⟨s₂, hs₂, e₂⟩ := alike r₂ h₂
    have := h.apart_of_ne hs₁ hs₂ fun e => ne (by rw [e₁.addr, e₂.addr, e])
    simp only [Record.stop, e₁.addr, e₁.size, e₂.addr, e₂.size] at this ⊢
    exact this
  header r' hr' := by
    obtain ⟨r, hr, e⟩ := alike r' hr'
    rw [e.addr, e.header]
    exact h.header r hr
  body r' hr' := by
    obtain ⟨r, hr, e⟩ := alike r' hr'
    rw [Record.bodyAddr, Record.bodySize, e.addr, e.size, e.content]
    exact h.body r hr

end Keeps

end Arena

end TxHeap
