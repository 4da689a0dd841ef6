/-
  TxHeap.Proofs.Progress — a preparation under way, in records.

  A preparation that starts from a nursery that keeps its records (`Ready`) goes on keeping
  them: what it does to private objects and what it adds to the shared heap is said by a
  progress `g`, and `Going` ties the progress to the state. Bodies are replaced field by
  field (`going_store`), and an object is promoted into room of which nobody has a
  part (`going_makeTwin`). Nothing but these two ever happens to an object, and where a step
  fails, the progress made so far stands.
-/
import Mathlib.Data.List.Nodup
import TxHeap.Proofs.Image
import TxHeap.Proofs.Onward

namespace TxHeap

structure Progress where
  /-- What has become of each private object. -/
  own : Record → Record
  /-- Promoted objects, each with its twin. -/
  twins : List (Record × Record)
  /-- The offsets of each item that are done. -/
  done : Item → List Nat

namespace Progress

/-- The item is for the object that was found as the first record and is now as the second says. -/
inductive Stands (g : Progress) (own : List Record) : Item → Record → Record → Prop
  | root {r : Record} {root : Nat} : r ∈ own → r.kind = .copyOf root → Stands g own (.root r.addr) r (g.own r)
  | twin {r t : Record} : (r, t) ∈ g.twins → Stands g own (.twin t.addr) r t

def moves (g : Progress) : List (Record × Nat) := g.twins.map fun x => (x.1, x.2.addr)

def Works (g : Progress) (own : List Record) (item : Item) (r : Record) : Prop := ∃ r', g.Stands own item r r'

def start : Progress := ⟨id, [], fun _ => []⟩

def finish (g : Progress) (item : Item) (offset : Nat) : Progress :=
  { g with done := fun i => if i = item then g.done i ++ [offset] else g.done i }

def push (g : Progress) (item : Item) (store : Store) : Progress :=
  match item with
  | .root copy => { g with own := fun r => if r.addr = copy then (g.own r).push store else g.own r }
  | .twin obj => { g with twins := g.twins.map fun x => if x.2.addr = obj then (x.1, x.2.push store) else x }

def promote (g : Progress) (r t : Record) : Progress where
  own x := if x = r then { r with kind := .moved t.addr } else g.own x
  twins := g.twins ++ [(r, t)]
  done i := if i = .twin t.addr then [] else g.done i

end Progress

theorem Item.root_ne_twin {a b : Nat} : Item.root a ≠ .twin b := nofun

namespace Progress

theorem mem_moves {g : Progress} {r : Record} {twin : Nat} :
    (r, twin) ∈ g.moves ↔ ∃ t, (r, t) ∈ g.twins ∧ t.addr = twin := by
  rw [moves, List.mem_map]
  constructor
  · intro found
    obtain ⟨⟨x, t⟩, ht, e⟩ := found
    cases e
    exact ⟨t, ht, rfl⟩
  · intro found
    obtain ⟨t, ht, rfl⟩ := found
    exact ⟨(r, t), ht, rfl⟩

@[simp] theorem finish_own (g : Progress) (item : Item) (o : Nat) : (g.finish item o).own = g.own := rfl
@[simp] theorem finish_twins (g : Progress) (item : Item) (o : Nat) : (g.finish item o).twins = g.twins := rfl
@[simp] theorem finish_moves (g : Progress) (item : Item) (o : Nat) : (g.finish item o).moves = g.moves := rfl

@[simp] theorem finish_done_self (g : Progress) (item : Item) (o : Nat) :
    (g.finish item o).done item = g.done item ++ [o] :=
  if_pos rfl

theorem finish_done_of_ne {g : Progress} {item i : Item} {o : Nat} (ne : i ≠ item) :
    (g.finish item o).done i = g.done i :=
  if_neg ne

theorem promote_done_of_ne {g : Progress} {r t : Record} {i : Item} (ne : i ≠ .twin t.addr) :
    (g.promote r t).done i = g.done i :=
  if_neg ne

@[simp] theorem promote_done_self (g : Progress) (r t : Record) : (g.promote r t).done (.twin t.addr) = [] := if_pos rfl

@[simp] theorem promote_moves (g : Progress) (r t : Record) : (g.promote r t).moves = g.moves ++ [(r, t.addr)] := by
  simp only [moves, promote, List.map_append, List.map_cons, List.map_nil]

@[simp] theorem push_done (g : Progress) (item : Item) (store : Store) : (g.push item store).done = g.done := by
  cases item <;> rfl

/-- What a store to a twin does not change is the same for all twins. -/
theorem map_push_twins {α : Type} (g : Progress) (item : Item) {store : Store} {f : Record × Record → α}
    (hf : ∀ r t, f (r, t.push store) = f (r, t)) : (g.push item store).twins.map f = g.twins.map f := by
  cases item with
  | root copy => rfl
  | twin obj =>
    rw [push, List.map_map]
    refine List.map_congr_left ?_
    intro x _
    rw [Function.comp_apply]
    split
    · exact hf x.1 x.2
    · rfl

@[simp] theorem push_moves (g : Progress) (item : Item) (store : Store) : (g.push item store).moves = g.moves :=
  g.map_push_twins item fun _ _ => rfl

theorem mem_push_twins {g : Progress} {obj : Nat} {store : Store} {r t : Record} :
    (r, t) ∈ (g.push (.twin obj) store).twins ↔
      ∃ t₀, (r, t₀) ∈ g.twins ∧ t = if t₀.addr = obj then t₀.push store else t₀ := by
  simp only [push, List.mem_map, Prod.exists]
  constructor
  · intro found
    obtain ⟨r₀, t₀, h, e⟩ := found
    by_cases ht : t₀.addr = obj
    · rw [if_pos ht] at e
      cases e
      exact ⟨_, h, (if_pos ht).symm⟩
    · rw [if_neg ht] at e
      cases e
      exact ⟨_, h, (if_neg ht).symm⟩
  · intro found
    obtain ⟨t₀, h, rfl⟩ := found
    refine ⟨r, t₀, h, ?_⟩
    split <;> rfl

end Progress

structure Ready (layout : Layout) (own shared : List Record) (p : Preparation) : Prop where
  sound : layout.Sound
  roomy : p.shared.Roomy
  nursery : p.tx.nursery.Keeps layout own
  keeps : p.shared.Keeps layout shared
  kinds : ∀ r ∈ own, r.kind = .fresh ∨ ∃ root, r.kind = .copyOf root ∧ root < wordLimit
  pairs : p.tx.objects.pairs = own.filterMap Record.pair?
  /-- A pointer into the nursery points at an object of it. -/
  aim : ∀ r ∈ own, ∀ offset ∈ layout.fields r.typeId, p.tx.nursery.contains (wordAt r.content offset) = true →
    ∃ r' ∈ own, r'.addr = wordAt r.content offset

def Preparation.Outside (p : Preparation) (v : Nat) : Prop :=
  p.tx.nursery.contains v = false ∧ p.shared.contains v = true

/-- What a field may have become; weak pointers only once it is `late`. -/
def Progress.Becomes (g : Progress) (layout : Layout) (own : List Record) (late : Prop) (p : Preparation)
    (typeId : Nat) : Nat → Nat → Nat → Prop :=
  layout.Becomes typeId (Image own g.moves p.Outside) fun v v' =>
    late ∧ (Image own g.moves p.Outside v v' ∨ Cleared own g.moves v v')

/-- The tokens of promoted objects are now those of their twins; all others are where they were. -/
structure Preparation.Rekeyed (p₀ p : Preparation) (moves : List (Record × Nat)) : Prop where
  shared : ∀ a, (∀ x ∈ moves, x.2 ≠ a) → p.tokens.get? a = p₀.tokens.get? a
  own : ∀ a, (∀ x ∈ moves, x.1.addr ≠ a) → p.tx.tokens.get? a = p₀.tx.tokens.get? a
  gone : ∀ x ∈ moves, p.tx.tokens.get? x.1.addr = none
  moved : ∀ x ∈ moves, p.tokens.get? x.2 = (p₀.tx.tokens.get? x.1.addr).or (p₀.tokens.get? x.2)

theorem Preparation.Rekeyed.refl (p : Preparation) : p.Rekeyed p [] := ⟨fun _ _ => rfl, fun _ _ => rfl, nofun, nofun⟩

theorem Preparation.Rekeyed.congr {p₀ p q : Preparation} {moves : List (Record × Nat)} (h : p₀.Rekeyed p moves)
    (shared : q.tokens = p.tokens) (own : q.tx.tokens = p.tx.tokens) : p₀.Rekeyed q moves :=
  ⟨shared ▸ h.shared, own ▸ h.own, own ▸ h.gone, shared ▸ h.moved⟩

/-- The preparation that started from `p₀` is at `p`, after the progress `g`. -/
structure Going (layout : Layout) (own shared : List Record) (p₀ : Preparation) (late : Prop) (g : Progress)
    (p : Preparation) : Prop where
  onward : p₀.Onward p
  nursery : p.tx.nursery.Keeps layout (own.map g.own)
  shared : p.shared.Keeps layout (shared ++ g.twins.map Prod.snd)
  shape : ∀ r ∈ own, (g.own r).addr = r.addr ∧ (g.own r).typeId = r.typeId ∧ (g.own r).size = r.size
  copies : ∀ r ∈ own, ∀ root, r.kind = .copyOf root → (g.own r).kind = r.kind
  fresh : ∀ r ∈ own, r.kind = .fresh → (g.own r = r ∧ ∀ t, (r, t) ∉ g.twins) ∨
    ∃ t, (r, t) ∈ g.twins ∧ g.own r = { r with kind := .moved t.addr }
  twins : ∀ r t, (r, t) ∈ g.twins →
    r ∈ own ∧ r.kind = .fresh ∧ t.typeId = r.typeId ∧ t.size = r.size ∧ t.kind = .shared true false
  once : (g.twins.map Prod.fst).Nodup
  /-- Twins lie in bytes that were not handed out before. -/
  above : ∀ r t, (r, t) ∈ g.twins → p₀.shared.freePointer ≤ t.addr ∧ t.stop ≤ p.buffer.cursor
  buffer : p.buffer.cursor = 0 ∧ p.buffer.limit = 0 ∨
    p₀.shared.freePointer ≤ p.buffer.cursor ∧ p.buffer.cursor ≤ p.buffer.limit ∧ p.buffer.limit ≤ p.shared.freePointer
  /-- The shared bytes that were handed out before are as they were. -/
  below : ∀ i < p₀.shared.freePointer, p.shared.memory.get i = p₀.shared.memory.get i
  bodies : ∀ item r r', g.Stands own item r r' → (∀ o ∈ g.done item, o ∈ layout.fields r.typeId) ∧
    Replaced (g.Becomes layout own late p r.typeId) (layout.fields r.typeId) (g.done item) r.content r'.content
  promoted : p.report.promoted = g.twins.length ∧ p.report.bytesPromoted = (g.twins.map (·.2.size)).sum
  tokens : p₀.Rekeyed p g.moves

section

variable {layout : Layout} {own shared : List Record} {p₀ p : Preparation} {late : Prop} {g : Progress}
  {item : Item} {r r' t : Record} {offset v : Nat}

theorem Ready.going (h : Ready layout own shared p) (hc : p.buffer.cursor = 0) (hl : p.buffer.limit = 0)
    (hp : p.report.promoted = 0) (hb : p.report.bytesPromoted = 0) : Going layout own shared p late .start p where
  onward := .refl p
  nursery := by
    rw [Progress.start, List.map_id_fun, id]
    exact h.nursery
  shared := by
    rw [Progress.start, List.map_nil, List.append_nil]
    exact h.keeps
  shape _ _ := ⟨rfl, rfl, rfl⟩
  copies _ _ _ _ := rfl
  fresh _ _ _ := .inl ⟨rfl, nofun⟩
  twins := nofun
  once := .nil
  above := nofun
  buffer := .inl ⟨hc, hl⟩
  below _ _ := rfl
  bodies := by
    intro _ _ _ found
    rcases found with ⟨hr, hk⟩ | ⟨ht⟩
    · exact ⟨nofun, .refl _ _ _⟩
    · cases ht
  promoted := ⟨hp, hb⟩
  tokens := .refl p

namespace Going

/-! ## What is known of an item -/

theorem own_unique (ready : Ready layout own shared p₀) (hr : r ∈ own) (hr' : r' ∈ own) (e : r.addr = r'.addr) :
    r = r' :=
  ready.nursery.eq_of_addr hr hr' e

theorem twin_mem (ht : (r, t) ∈ g.twins) : t ∈ shared ++ g.twins.map Prod.snd :=
  List.mem_append_right _ (List.mem_map_of_mem (f := Prod.snd) ht)

/-- A twin is found by its address. -/
theorem twin_unique {r₁ t₁ : Record} (h : Going layout own shared p₀ late g p) (ht : (r, t) ∈ g.twins)
    (ht₁ : (r₁, t₁) ∈ g.twins) (e : t.addr = t₁.addr) : r = r₁ ∧ t = t₁ := by
  have apart := (List.pairwise_append.mp h.shared.apart).2.1
  rw [List.pairwise_map] at apart
  obtain ⟨i, hi, hx⟩ := List.getElem_of_mem ht
  obtain ⟨j, hj, hy⟩ := List.getElem_of_mem ht₁
  have hp := List.pairwise_iff_getElem.1 apart
  have size := h.shared.headerSize_le (twin_mem ht)
  have size₁ := h.shared.headerSize_le (twin_mem ht₁)
  rcases Nat.lt_trichotomy i j with hij | rfl | hij
  · have := hp i j hi hj hij
    simp only [hx, hy, Record.stop, headerSize, wordSize] at *
    omega
  · rw [hx] at hy
    cases hy
    exact ⟨rfl, rfl⟩
  · have := hp j i hj hi hij
    simp only [hx, hy, Record.stop, headerSize, wordSize] at *
    omega

/-- Only fresh objects are promoted. -/
theorem fresh_of_moves {twin : Nat} (h : Going layout own shared p₀ late g p) (hm : (r, twin) ∈ g.moves) :
    r ∈ own ∧ r.kind = .fresh := by
  obtain ⟨t, ht, -⟩ := Progress.mem_moves.1 hm
  exact ⟨(h.twins r t ht).1, (h.twins r t ht).2.1⟩

/-- An object has one twin. -/
theorem twin_once {t' : Record} (h : Going layout own shared p₀ late g p) (ht : (r, t) ∈ g.twins)
    (ht' : (r, t') ∈ g.twins) : t = t' :=
  (Prod.mk.inj (List.inj_on_of_nodup_map h.once ht ht' rfl)).2

theorem stands_unique {r₁ r₁' : Record} (ready : Ready layout own shared p₀)
    (h : Going layout own shared p₀ late g p) (hs : g.Stands own item r r') (hs₁ : g.Stands own item r₁ r₁') :
    r = r₁ ∧ r' = r₁' := by
  cases hs with
  | root hr hk =>
    generalize e : Item.root r.addr = i at hs₁
    cases hs₁ with
    | root hr₁ hk₁ =>
      cases own_unique ready hr hr₁ (Item.root.inj e)
      exact ⟨rfl, rfl⟩
    | twin => cases e
  | twin ht =>
    generalize e : Item.twin r'.addr = i at hs₁
    cases hs₁ with
    | root => cases e
    | twin ht₁ => exact h.twin_unique ht ht₁ (Item.twin.inj e)

theorem stands_shape (h : Going layout own shared p₀ late g p) (hs : g.Stands own item r r') :
    r ∈ own ∧ r'.typeId = r.typeId ∧ r'.size = r.size := by
  cases hs with
  | root hr hk => exact ⟨hr, (h.shape _ hr).2⟩
  | twin ht =>
    obtain ⟨hr, -, hty, hsz, -⟩ := h.twins _ _ ht
    exact ⟨hr, hty, hsz⟩

theorem field_fits (ready : Ready layout own shared p₀) (hr : r ∈ own) (ho : offset ∈ layout.fields r.typeId) :
    headerSize + offset + wordSize ≤ r.size :=
  ready.sound.field_le_size ho (ready.nursery.sized r hr)

/-- A pointer that is recorded is the one in memory. -/
theorem word_eq (ready : Ready layout own shared p₀) (hr : r ∈ own) (ho : offset ∈ layout.fields r.typeId) :
    r.word offset = p₀.tx.nursery.memory.readWord (r.bodyAddr + offset) := by
  rw [Record.bodyAddr, Nat.add_assoc]
  exact (ready.nursery.readWord_eq hr (field_fits ready hr ho)).symm

theorem headerOf_eq (h : Going layout own shared p₀ late g p) (hs : g.Stands own item r r') :
    Prepare.headerOf item p = .ok r'.header p := by
  cases hs with
  | root hr hk =>
    have he := h.nursery.header_eq (List.mem_map_of_mem (f := g.own) hr)
    rw [(h.shape r hr).1] at he
    simp [Prepare.headerOf, he]
  | twin ht =>
    have he := h.shared.header_eq (twin_mem ht)
    simp [Prepare.headerOf, he]

theorem field_address (ready : Ready layout own shared p₀) (h : Going layout own shared p₀ late g p)
    (hs : g.Stands own item r r') (ho : offset ∈ layout.fields r.typeId) :
    payloadAddress r'.addr offset = .ok (r'.addr + (headerSize + offset)) := by
  have fit := field_fits ready (h.stands_shape hs).1 ho
  have stop : r'.stop < wordLimit := by
    cases hs with
    | root hr _ => exact h.nursery.stop_lt (List.mem_map_of_mem hr)
    | twin ht => exact h.shared.stop_lt (twin_mem ht)
  have size := (h.stands_shape hs).2.2
  rw [Record.stop, size] at stop
  exact payloadAddress_eq (by omega) (by simp only [wordSize] at fit; omega)

theorem readField_eq (ready : Ready layout own shared p₀) (h : Going layout own shared p₀ late g p)
    (hs : g.Stands own item r r') (ho : offset ∈ layout.fields r.typeId) :
    Prepare.readField item offset p = .ok (wordAt r'.content offset) p := by
  have address := h.field_address ready hs ho
  have fit := field_fits ready (h.stands_shape hs).1 ho
  have size := (h.stands_shape hs).2.2
  rw [← size] at fit
  cases hs with
  | root hr hk =>
    have mem := List.mem_map_of_mem (f := g.own) hr
    have hread := Arena.readWord_eq_ok.2
      ⟨h.nursery.spans (k := headerSize + offset) mem (by omega), h.nursery.readWord_eq mem fit⟩
    rw [(h.shape r hr).1] at hread address
    simp [Prepare.readField, address, hread]
  | twin ht =>
    have hread := Arena.readWord_eq_ok.2
      ⟨h.shared.spans (k := headerSize + offset) (twin_mem ht) (by omega), h.shared.readWord_eq (twin_mem ht) fit⟩
    simp [Prepare.readField, address, hread]

/-! ## A field is replaced -/

theorem body_store {q : Preparation} {g' : Progress} (ready : Ready layout own shared p₀)
    (h : Going layout own shared p₀ late g p) (hs : g.Stands own item r r') (ho : offset ∈ layout.fields r.typeId)
    (hd : offset ∉ g.done item) (word : v < wordLimit)
    (hv : g.Becomes layout own late p r.typeId offset (wordAt r.content offset) v)
    (moves : g'.moves = g.moves) (outside : q.Outside = p.Outside) :
    (∀ o ∈ g.done item ++ [offset], o ∈ layout.fields r.typeId) ∧
      Replaced (g'.Becomes layout own late q r.typeId) (layout.fields r.typeId) (g.done item ++ [offset]) r.content
        (r'.push (.word offset v)).content := by
  obtain ⟨sub, body⟩ := h.bodies _ _ _ hs
  have mem := (h.stands_shape hs).1
  have fit := field_fits ready mem ho
  have length := ready.nursery.length_content mem
  rw [Record.bodySize] at length
  refine ⟨?_, ?_⟩
  · intro o hin
    rcases List.mem_append.mp hin with hin | hin
    · exact sub o hin
    · rw [List.mem_singleton.mp hin]
      exact ho
  · rw [Record.push_content, Progress.Becomes, moves, outside]
    exact body.store ho sub hd (fun o hf ne => ready.sound.apart hf ho ne) (by omega) word hv

/-- A body that a step left alone. -/
theorem body_same {q : Preparation} {g' : Progress} (h : Going layout own shared p₀ late g p)
    (hs : g.Stands own item r r') (moves : g'.moves = g.moves) (outside : q.Outside = p.Outside) :
    (∀ o ∈ g.done item, o ∈ layout.fields r.typeId) ∧
      Replaced (g'.Becomes layout own late q r.typeId) (layout.fields r.typeId) (g.done item) r.content r'.content := by
  rw [Progress.Becomes, moves, outside]
  exact h.bodies item r r' hs

/-- A store changes the object of one item; all others stand as they did. -/
theorem stands_push {i : Item} {x x' : Record} {store : Store} (ready : Ready layout own shared p₀)
    (h : Going layout own shared p₀ late g p) (hs : g.Stands own item r r')
    (found : ((g.push item store).finish item offset).Stands own i x x') :
    i = item ∧ x = r ∧ x' = r'.push store ∨ i ≠ item ∧ g.Stands own i x x' := by
  cases hs with
  | root hr hk =>
    rcases found with ⟨hx, hx'⟩ | ⟨hx⟩
    · by_cases e : x = r
      · subst e
        exact .inl ⟨rfl, rfl, if_pos rfl⟩
      · have ne : x.addr ≠ r.addr := fun e' => e (own_unique ready hx hr e')
        have other : ((g.push (.root r.addr) store).finish (.root r.addr) offset).own x = g.own x := if_neg ne
        rw [other]
        exact .inr ⟨fun e' => ne (Item.root.inj e'), .root hx hx'⟩
    · exact .inr ⟨Item.root_ne_twin.symm, .twin hx⟩
  | twin ht =>
    rcases found with ⟨hx, hx'⟩ | ⟨hx⟩
    · exact .inr ⟨Item.root_ne_twin, .root hx hx'⟩
    · obtain ⟨y, hy, rfl⟩ := Progress.mem_push_twins.1 hx
      by_cases e : y.addr = r'.addr
      · obtain ⟨rfl, rfl⟩ := h.twin_unique hy ht e
        rw [if_pos rfl]
        exact .inl ⟨rfl, rfl, rfl⟩
      · rw [if_neg e]
        exact .inr ⟨fun e' => e (Item.twin.inj e'), .twin hy⟩

/-- The bodies after a store to a field that was still to do. -/
theorem bodies_push {q : Preparation} (ready : Ready layout own shared p₀) (h : Going layout own shared p₀ late g p)
    (hs : g.Stands own item r r') (ho : offset ∈ layout.fields r.typeId) (hd : offset ∉ g.done item)
    (word : v < wordLimit) (hv : g.Becomes layout own late p r.typeId offset (wordAt r.content offset) v)
    (outside : q.Outside = p.Outside) (i : Item) (x x' : Record)
    (found : ((g.push item (.word offset v)).finish item offset).Stands own i x x') :
    (∀ o ∈ ((g.push item (.word offset v)).finish item offset).done i, o ∈ layout.fields x.typeId) ∧
      Replaced (((g.push item (.word offset v)).finish item offset).Becomes layout own late q x.typeId)
        (layout.fields x.typeId) (((g.push item (.word offset v)).finish item offset).done i) x.content x'.content := by
  rcases h.stands_push ready hs found with ⟨rfl, rfl, rfl⟩ | ⟨ne, found⟩
  · rw [Progress.finish_done_self, Progress.push_done]
    exact h.body_store ready hs ho hd word hv (by simp) outside
  · rw [Progress.finish_done_of_ne ne, Progress.push_done]
    exact h.body_same found (by simp) outside

theorem write_root {root : Nat} {m : Memory} (ready : Ready layout own shared p₀)
    (h : Going layout own shared p₀ late g p) (hr : r ∈ own) (hk : r.kind = .copyOf root)
    (ho : offset ∈ layout.fields r.typeId) (hd : offset ∉ g.done (.root r.addr)) (word : v < wordLimit)
    (hv : g.Becomes layout own late p r.typeId offset (wordAt r.content offset) v)
    (kept : { p.tx.nursery with memory := m }.Keeps layout
      (amend (own.map g.own) (g.own r).addr (·.push (.word offset v)))) :
    Going layout own shared p₀ late ((g.push (.root r.addr) (.word offset v)).finish (.root r.addr) offset)
      { p with tx := { p.tx with nursery := { p.tx.nursery with memory := m } } } := by
  have own_eq : own.map (g.push (.root r.addr) (.word offset v)).own =
      amend (own.map g.own) (g.own r).addr (·.push (.word offset v)) := by
    rw [amend, List.map_map]
    refine List.map_congr_left ?_
    intro x hx
    simp only [Function.comp_apply, (h.shape x hx).1, (h.shape r hr).1]
    rfl
  have self : (g.push (.root r.addr) (.word offset v)).own r = (g.own r).push (.word offset v) := if_pos rfl
  have other : ∀ x ∈ own, x ≠ r → (g.push (.root r.addr) (.word offset v)).own x = g.own x := fun x hx ne =>
    if_neg fun e => ne (own_unique ready hx hr e)
  refine
    { onward := h.onward.trans (.setNursery rfl rfl rfl rfl)
      nursery := own_eq ▸ kept
      shared := h.shared
      shape := fun x hx => ?_
      copies := fun x hx root' hx' => ?_
      fresh := fun x hx hx' => ?_
      twins := h.twins
      once := h.once
      above := h.above
      buffer := h.buffer
      below := h.below
      bodies := h.bodies_push ready (.root hr hk) ho hd word hv rfl
      promoted := h.promoted
      tokens := by
        rw [Progress.finish_moves, Progress.push_moves]
        exact h.tokens.congr rfl rfl }
  · by_cases e : x = r
    · subst e
      exact self ▸ h.shape x hx
    · exact other x hx e ▸ h.shape x hx
  · by_cases e : x = r
    · subst e
      exact self ▸ h.copies x hx root' hx'
    · exact other x hx e ▸ h.copies x hx root' hx'
  · have ne : x ≠ r := fun e => by rw [e, hk] at hx'; cases hx'
    exact other x hx ne ▸ h.fresh x hx hx'

/-- A twin lies above all that was there before, so a store to it changes no other record. -/
theorem push_twin_records {store : Store} (ready : Ready layout own shared p₀) (h : Going layout own shared p₀ late g p)
    (ht : (r, t) ∈ g.twins) : shared ++ (g.push (.twin t.addr) store).twins.map Prod.snd =
      amend (shared ++ g.twins.map Prod.snd) t.addr (·.push store) := by
  have above := h.above r t ht
  rw [amend, List.map_append, List.map_map, Progress.push, List.map_map]
  congr 1
  · have keep : ∀ x ∈ shared, (if x.addr = t.addr then x.push store else x) = x := fun x hx => by
      have := (ready.keeps.inside x hx).2
      have := ready.keeps.headerSize_le hx
      refine if_neg ?_
      intro e
      simp only [Record.stop, headerSize, wordSize] at *
      omega
    exact (List.map_congr_left keep |>.trans (List.map_id'' (fun _ => rfl) _)).symm
  · refine List.map_congr_left ?_
    intro x _
    simp only [Function.comp_apply]
    split <;> rfl

theorem write_twin {m : Memory} (ready : Ready layout own shared p₀) (h : Going layout own shared p₀ late g p)
    (ht : (r, t) ∈ g.twins) (ho : offset ∈ layout.fields r.typeId) (hd : offset ∉ g.done (.twin t.addr))
    (word : v < wordLimit) (hv : g.Becomes layout own late p r.typeId offset (wordAt r.content offset) v)
    (kept : { p.shared with memory := m }.Keeps layout
      (amend (shared ++ g.twins.map Prod.snd) t.addr (·.push (.word offset v))))
    (out : ∀ i, i < t.addr ∨ t.stop ≤ i → m.get i = p.shared.memory.get i) :
    Going layout own shared p₀ late ((g.push (.twin t.addr) (.word offset v)).finish (.twin t.addr) offset)
      { p with shared := { p.shared with memory := m } } := by
  have inside := h.shared.inside t (twin_mem ht)
  have above := h.above r t ht
  have same : ∀ y : Record, ∀ y', y' = (if y.addr = t.addr then y.push (.word offset v) else y) →
      y'.addr = y.addr ∧ y'.typeId = y.typeId ∧ y'.size = y.size ∧ y'.kind = y.kind ∧ y'.stop = y.stop := by
    intro y _ e
    subst e
    split <;> exact ⟨rfl, rfl, rfl, rfl, rfl⟩
  refine
    { onward := h.onward.trans (.setShared fun i hi => out i (.inr (Nat.le_trans inside.2 hi)))
      nursery := by rw [Progress.finish_own]; exact h.nursery
      shared := h.push_twin_records ready ht ▸ kept
      shape := h.shape
      copies := h.copies
      fresh := fun x hx hx' => ?_
      twins := fun x y hx => ?_
      once := ?_
      above := fun x y hx => ?_
      buffer := h.buffer
      below := fun i hi => (out i (.inl (Nat.lt_of_lt_of_le hi above.1))).trans (h.below i hi)
      bodies := h.bodies_push ready (.twin ht) ho hd word hv rfl
      promoted := ?_
      tokens := by
        rw [Progress.finish_moves, Progress.push_moves]
        exact h.tokens.congr rfl rfl }
  · rcases h.fresh x hx hx' with ⟨e, none⟩ | ⟨y, hy, e⟩
    · refine .inl ⟨e, ?_⟩
      intro y hy
      obtain ⟨y₀, hy₀, -⟩ := Progress.mem_push_twins.1 hy
      exact none y₀ hy₀
    · refine .inr ⟨_, Progress.mem_push_twins.2 ⟨y, hy, rfl⟩, ?_⟩
      rw [(same y _ rfl).1]
      exact e
  · obtain ⟨y₀, hy₀, rfl⟩ := Progress.mem_push_twins.1 hx
    obtain ⟨hx, hk, hty, hsz, hkind⟩ := h.twins x y₀ hy₀
    obtain ⟨-, ety, esz, ekind, -⟩ := same y₀ _ rfl
    exact ⟨hx, hk, ety.trans hty, esz.trans hsz, ekind.trans hkind⟩
  · rw [Progress.finish_twins, Progress.map_push_twins g _ fun _ _ => rfl]
    exact h.once
  · obtain ⟨y₀, hy₀, rfl⟩ := Progress.mem_push_twins.1 hx
    rw [(same y₀ _ rfl).1, (same y₀ _ rfl).2.2.2.2]
    exact h.above x y₀ hy₀
  · refine ⟨?_, ?_⟩
    · rw [Progress.finish_twins, Progress.push, List.length_map]
      exact h.promoted.1
    · rw [Progress.finish_twins, Progress.map_push_twins g _ fun _ _ => rfl]
      exact h.promoted.2

/-- A field that holds what it becomes is done as it is. -/
theorem keep (h : Going layout own shared p₀ late g p) (hs : g.Works own item r) (ho : offset ∈ layout.fields r.typeId)
    (hd : offset ∉ g.done item) (ready : Ready layout own shared p₀)
    (hv : g.Becomes layout own late p r.typeId offset (wordAt r.content offset) (wordAt r.content offset)) :
    Going layout own shared p₀ late (g.finish item offset) p := by
  refine { h with bodies := ?_ }
  intro i x x' hx'
  have hx : g.Stands own i x x' := by
    cases hx' with
    | root hx hk => exact .root hx hk
    | twin hx => exact .twin hx
  obtain ⟨sub, body⟩ := h.bodies i x x' hx
  by_cases e : i = item
  · subst e
    obtain ⟨r', hs⟩ := hs
    obtain ⟨rfl, rfl⟩ := h.stands_unique ready hs hx
    rw [Progress.finish_done_self]
    refine ⟨?_, body.keep ho hd hv⟩
    intro o hin
    rcases List.mem_append.mp hin with hin | hin
    · exact sub o hin
    · rw [List.mem_singleton.mp hin]
      exact ho
  · rw [Progress.finish_done_of_ne e]
    exact ⟨sub, body⟩

/-- Nothing that a progress speaks of has changed. -/
theorem of_same {q : Preparation} (h : Going layout own shared p₀ late g p) (hs : q.shared = p.shared)
    (hn : q.tx.nursery = p.tx.nursery) (ho : q.tx.objects = p.tx.objects) (hb : q.buffer = p.buffer)
    (ht : q.tokens = p.tokens ∧ q.tx.tokens = p.tx.tokens)
    (hr : q.report.promoted = p.report.promoted ∧ q.report.bytesPromoted = p.report.bytesPromoted) :
    Going layout own shared p₀ late g q := by
  have outside : q.Outside = p.Outside := by
    funext v
    rw [Preparation.Outside, Preparation.Outside, hs, hn]
  refine
    { onward := h.onward.trans ⟨ho, by rw [hn], by rw [hn], by rw [hn], by rw [hn], by rw [hs], by rw [hs],
        by rw [hs], Nat.le_of_eq (by rw [hs]), by rw [hs]; exact id⟩
      nursery := by rw [hn]; exact h.nursery
      shared := by rw [hs]; exact h.shared
      shape := h.shape
      copies := h.copies
      fresh := h.fresh
      twins := h.twins
      once := h.once
      above := by rw [hb]; exact h.above
      buffer := by rw [hb, hs]; exact h.buffer
      below := by rw [hs]; exact h.below
      bodies := fun i x x' hx => h.body_same hx rfl outside
      promoted := by rw [hr.1, hr.2]; exact h.promoted
      tokens := h.tokens.congr ht.1 ht.2 }

end Going

namespace Progress

variable {i : Item} {x : Record}

theorem works_iff : g.Works own i x ↔
    (x ∈ own ∧ (∃ root, x.kind = .copyOf root) ∧ i = .root x.addr) ∨ ∃ twin, (x, twin) ∈ g.moves ∧ i = .twin twin := by
  constructor
  · intro found
    obtain ⟨_, ⟨hx, hk⟩ | ⟨hx⟩⟩ := found
    · exact .inl ⟨hx, ⟨_, hk⟩, rfl⟩
    · exact .inr ⟨_, mem_moves.2 ⟨_, hx, rfl⟩, rfl⟩
  · intro found
    rcases found with ⟨hx, ⟨root, hk⟩, rfl⟩ | ⟨twin, hm, rfl⟩
    · exact ⟨_, .root hx hk⟩
    · obtain ⟨t, ht, rfl⟩ := mem_moves.1 hm
      exact ⟨t, .twin ht⟩

/-- After a promotion there is one more item, the twin. -/
theorem works_promote : (g.promote r t).Works own i x ↔ g.Works own i x ∨ i = .twin t.addr ∧ x = r := by
  rw [works_iff, works_iff, promote_moves]
  constructor
  · intro works
    rcases works with root | ⟨a, hm, rfl⟩
    · exact .inl (.inl root)
    · rcases List.mem_append.mp hm with hm | hm
      · exact .inl (.inr ⟨a, hm, rfl⟩)
      · cases List.mem_singleton.mp hm
        exact .inr ⟨rfl, rfl⟩
  · intro works
    rcases works with (root | ⟨a, hm, rfl⟩) | ⟨rfl, rfl⟩
    · exact .inl root
    · exact .inr ⟨a, List.mem_append_left _ hm, rfl⟩
    · exact .inr ⟨t.addr, List.mem_append_right _ (List.mem_singleton_self _), rfl⟩

/-- No item is for an address that no twin has. -/
theorem Works.ne_twin {twin : Nat} (hs : g.Works own i x) (distinct : ∀ x ∈ g.moves, x.2 ≠ twin) : i ≠ .twin twin := by
  intro e
  subst e
  rcases works_iff.1 hs with ⟨-, -, e⟩ | ⟨a, hm, e⟩
  · cases e
  · cases e
    exact distinct _ hm rfl

theorem works_of_moves {g' : Progress} (h : g'.moves = g.moves) : g'.Works own i x ↔ g.Works own i x := by
  rw [works_iff, works_iff, h]

end Progress

open Step

/-- Nothing was promoted, counted or put on a list. -/
structure Preparation.NothingPromoted (p q : Preparation) : Prop where
  pending : q.pending = p.pending
  weakHolders : q.weakHolders = p.weakHolders
  buffer : q.buffer = p.buffer
  report : q.report = p.report
  freePointer : q.shared.freePointer = p.shared.freePointer

theorem Preparation.NothingPromoted.refl (p : Preparation) : p.NothingPromoted p := ⟨rfl, rfl, rfl, rfl, rfl⟩

/-- The field of an item is given the word that it becomes. -/
theorem going_store {bad : Failure → Preparation → Prop} (ready : Ready layout own shared p₀)
    (h : Going layout own shared p₀ late g p) (hs : g.Works own item r) (ho : offset ∈ layout.fields r.typeId)
    (hd : offset ∉ g.done item) (word : v < wordLimit)
    (hv : g.Becomes layout own late p r.typeId offset (wordAt r.content offset) v) :
    Ends (if v = wordAt r.content offset then pure () else Prepare.writeField item offset v) p
      (fun _ q => ∃ g', Going layout own shared p₀ late g' q ∧ g'.moves = g.moves ∧
        g'.done = (g.finish item offset).done ∧ p.NothingPromoted q) bad := by
  by_cases e : v = wordAt r.content offset
  · rw [if_pos e, ends_pure]
    exact ⟨_, h.keep hs ho hd ready (e ▸ hv), rfl, rfl, .refl p⟩
  · rw [if_neg e]
    obtain ⟨r', hs⟩ := hs
    have address := h.field_address ready hs ho
    have fit := Going.field_fits ready (h.stands_shape hs).1 ho
    have done : ((g.push item (.word offset v)).finish item offset).done = (g.finish item offset).done := by
      rw [Progress.finish, Progress.push_done]
      rfl
    have moves : ((g.push item (.word offset v)).finish item offset).moves = g.moves := by simp
    cases hs with
    | root hr hk =>
      have mem := List.mem_map_of_mem (f := g.own) hr
      have fit' : headerSize + offset + wordSize ≤ (g.own r).size := by rw [(h.shape r hr).2.2]; exact fit
      have spans := h.nursery.spans (k := headerSize + offset) mem (by omega)
      have kept := h.nursery.storeWord (v := v) mem fit'
      rw [(h.shape r hr).1] at address spans
      rw [Prepare.writeField, ends_bind, ends_get, ends_bind]
      refine ends_ofAttempt_ok address ?_
      rw [ends_bind]
      refine ends_ofAttempt_ok (Arena.writeWord_eq_ok.2 ⟨spans, rfl⟩) ?_
      refine ⟨_, h.write_root ready hr hk ho hd word hv ?_, moves, done, ?_⟩
      · rw [(h.shape r hr).1] at kept
        rw [(h.shape r hr).1]
        exact kept
      · exact ⟨rfl, rfl, rfl, rfl, rfl⟩
    | twin ht =>
      have mem : _ ∈ shared ++ g.twins.map Prod.snd := Going.twin_mem ht
      have size := (h.twins _ _ ht).2.2.2.1
      rw [← size] at fit
      have spans := h.shared.spans (k := headerSize + offset) mem (by omega)
      have kept := h.shared.storeWord (v := v) mem fit
      rw [Prepare.writeField, ends_bind, ends_get, ends_bind]
      refine ends_ofAttempt_ok address ?_
      rw [ends_bind]
      refine ends_ofAttempt_ok (Arena.writeWord_eq_ok.2 ⟨spans, rfl⟩) ?_
      refine ⟨_, h.write_twin ready ht ho hd word hv kept ?_, moves, done, ?_⟩
      · intro i hi
        refine Memory.get_writeWord_of_apart ?_
        simp only [Record.stop] at hi
        omega
      · exact ⟨rfl, rfl, rfl, rfl, by simp only [Arena.freePointer]⟩

end

end TxHeap
