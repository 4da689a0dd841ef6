/-
  TxHeap.Proofs.Delivery — what a commit has made of the shared objects, record by record.

  A prepare and the apply after it give each root the body of its working copy and add the
  twins; nothing else changes (`Delivered`). A delivered body is that of the private
  object with every pointer replaced by where it leads (`Translates`), and where it leads is a
  function of the transaction's objects and the addresses of the twins (`pointee`).
-/
import TxHeap.Proofs.SharedWrites

namespace TxHeap

/-- Where a pointer leads after a commit; `moves` tells the addresses of the twins. -/
def pointee (own : List Record) (moves : List (Record × Nat)) (v : Nat) : Nat :=
  match own.find? fun r => r.addr = v with
  | some r =>
    match r.kind with
    | .copyOf root => root
    | _ => ((moves.find? fun x => x.1 = r).map Prod.snd).getD 0
  | none => v

/-- The body of a private object with every pointer replaced by where it leads. -/
def Translates (layout : Layout) (own : List Record) (moves : List (Record × Nat)) (r : Record) (new : List UInt8) : Prop :=
  Replaced (fun _ v v' => v' = pointee own moves v) (layout.fields r.typeId) (layout.fields r.typeId) r.content new

/-- Between the first and the second records of shared objects, a transaction with these objects was committed. -/
structure Delivered (layout : Layout) (own : List Record) (moves : List (Record × Nat)) (before after : List Record) :
    Prop where
  /-- An object keeps its header, and its body if it has no working copy. -/
  old : ∀ o ∈ before, ∃ o' ∈ after, o'.addr = o.addr ∧ o'.typeId = o.typeId ∧ o'.size = o.size ∧ o'.header = o.header ∧
    ((∀ r ∈ own, r.kind ≠ .copyOf o.addr) → o'.content = o.content) ∧
    ∀ r ∈ own, r.kind = .copyOf o.addr → Translates layout own moves r o'.content
  new : ∀ x ∈ moves, ∃ o ∈ after, o.addr = x.2 ∧ o.typeId = x.1.typeId ∧ o.size = x.1.size ∧
    o.header = .new x.1.typeId Flag.global ∧ Translates layout own moves x.1 o.content
  only : ∀ o ∈ after, (∃ r ∈ before, r.addr = o.addr) ∨ ∃ x ∈ moves, x.2 = o.addr

section

variable {layout : Layout} {own shared : List Record} {p₀ p : Preparation} {late : Prop} {g : Progress} {r r' : Record}
  {item : Item} {v v' : Nat} {moves : List (Record × Nat)}

/-! ## Where pointers lead -/

theorem pointee_none (h : ∀ r ∈ own, r.addr ≠ v) : pointee own moves v = v := by
  have missing : own.find? (fun r => r.addr = v) = none :=
    List.find?_eq_none.2 fun x hx e => h x hx (of_decide_eq_true e)
  rw [pointee, missing]

theorem pointee_own (ready : Ready layout own shared p₀) (hr : r ∈ own) : pointee own moves r.addr =
    match r.kind with
    | .copyOf root => root
    | _ => ((moves.find? fun x => x.1 = r).map Prod.snd).getD 0 := by
  have found : own.find? (fun x => x.addr = r.addr) = some r :=
    Plan.Tracks.find_own ready hr (decide_eq_true rfl) fun x hx => of_decide_eq_true hx
  rw [pointee, found]

/-- A pointer's image is where it leads. -/
theorem Going.pointee_image (ready : Ready layout own shared p₀) (h : Going layout own shared p₀ late g p)
    (hv : Image own g.moves p.Outside v v') : v' = pointee own g.moves v := by
  cases hv with
  | null => exact (pointee_none fun r hr => Nat.pos_iff_ne_zero.1 (ready.nursery.addr_pos hr)).symm
  | root hr hk => rw [pointee_own ready hr, hk]
  | @twin r _ hm =>
    obtain ⟨hr, hk⟩ := h.fresh_of_moves hm
    rw [pointee_own ready hr, hk]
    cases hfind : g.moves.find? fun x => x.1 = r with
    | none => exact absurd (decide_eq_true rfl) (List.find?_eq_none.1 hfind _ hm)
    | some x =>
      have found := List.find?_some hfind
      have same : x.1 = r := of_decide_eq_true found
      have hx : (r, x.2) ∈ g.moves := same ▸ List.mem_of_find?_eq_some hfind
      obtain ⟨t, ht, rfl⟩ := Progress.mem_moves.1 hm
      obtain ⟨t', ht', e⟩ := Progress.mem_moves.1 hx
      rw [h.twin_once ht ht', e]
      rfl
  | shared hout =>
    refine (pointee_none ?_).symm
    intro r hr e
    have inside := ready.nursery.contains hr
    rw [← h.onward.nursery_contains, e, hout.1] at inside
    cases inside

theorem pointee_cleared (ready : Ready layout own shared p₀) (hv : Cleared own moves v v') : v' = pointee own moves v := by
  obtain ⟨rfl, r, hr, rfl, hk, hn⟩ := hv
  have missing : moves.find? (fun x => x.1 = r) = none :=
    List.find?_eq_none.2 fun x hx e => hn x.2 (of_decide_eq_true e ▸ hx)
  rw [pointee_own ready hr, hk, missing]
  rfl

/-- All pointers of an item lead where they should when the preparation is over. -/
theorem Going.translates (ready : Ready layout own shared p₀) (h : Going layout own shared p₀ True g p)
    (finished : Finished layout own g) (hs : g.Stands own item r r') : Translates layout own g.moves r r'.content := by
  have body := (h.bodies item r r' hs).2
  rw [finished.done item r ⟨r', hs⟩] at body
  refine body.mono ?_
  intro offset _ v v' hv
  rcases hv with ⟨-, hv⟩ | ⟨-, -, hv | hv⟩
  · exact h.pointee_image ready hv
  · exact h.pointee_image ready hv
  · exact pointee_cleared ready hv

/-! ## What an apply writes -/

/-- An object without a working copy is as before, and one with a single copy has its body. -/
theorem overwritten_old (own : List Record) (m : Memory) {rs : List Record} {o : Record} (ho : o ∈ rs) :
    ∃ o' ∈ Ledger.overwritten m own rs, o'.addr = o.addr ∧ o'.typeId = o.typeId ∧ o'.size = o.size ∧
      o'.header = o.header ∧ ((∀ r ∈ own, r.kind ≠ .copyOf o.addr) → o'.content = o.content) ∧
      ∀ r ∈ own, r.kind = .copyOf o.addr → (∀ x ∈ own, x.kind = .copyOf o.addr → x = r) →
        o'.content = m.read r.bodyAddr r.bodySize := by
  induction own generalizing rs o with
  | nil => exact ⟨o, ho, rfl, rfl, rfl, rfl, fun _ => rfl, nofun⟩
  | cons y own ih =>
    rw [Ledger.overwritten, List.foldl_cons]
    by_cases hy : y.kind = .copyOf o.addr
    · -- the body of this copy is laid over the object
      simp only [hy]
      have mem := List.mem_map_of_mem
        (f := fun x : Record => if x.addr = o.addr then x.push (.body (m.read y.bodyAddr y.bodySize)) else x) ho
      rw [if_pos rfl] at mem
      obtain ⟨o', ho', addr, typeId, size, header, none, one⟩ := ih mem
      refine ⟨o', ho', addr, typeId, size, header, fun h => absurd hy (h y List.mem_cons_self), ?_⟩
      intro r hr hk only
      by_cases later : ∃ x ∈ own, x.kind = .copyOf o.addr
      · obtain ⟨x, hx, hkx⟩ := later
        have same := only x (List.mem_cons_of_mem _ hx) hkx
        exact one r (same ▸ hx) hk fun z hz => only z (List.mem_cons_of_mem _ hz)
      · rw [none fun x hx hkx => later ⟨x, hx, hkx⟩, Record.push_content, only y List.mem_cons_self hy]
        rfl
    · have mem : o ∈ (match y.kind with
          | .copyOf root => amend rs root (·.push (.body (m.read y.bodyAddr y.bodySize)))
          | _ => rs) := by
        split
        · rename_i root hk
          have mem := List.mem_map_of_mem
            (f := fun x : Record => if x.addr = root then x.push (.body (m.read y.bodyAddr y.bodySize)) else x) ho
          rwa [if_neg fun e => hy (by rw [hk, e])] at mem
        · exact ho
      obtain ⟨o', ho', addr, typeId, size, header, none, one⟩ := ih mem
      refine ⟨o', ho', addr, typeId, size, header, fun h => none fun x hx => h x (List.mem_cons_of_mem _ hx), ?_⟩
      intro r hr hk only
      refine one r ?_ hk fun z hz => only z (List.mem_cons_of_mem _ hz)
      rcases List.mem_cons.mp hr with rfl | hr
      · exact absurd hk hy
      · exact hr

theorem overwritten_only {own rs : List Record} {m : Memory} :
    ∀ o' ∈ Ledger.overwritten m own rs, ∃ o ∈ rs, o.addr = o'.addr := by
  refine overwritten_induction (P := fun rs' => ∀ o' ∈ rs', ∃ o ∈ rs, o.addr = o'.addr) ?_ fun o ho => ⟨o, ho, rfl⟩
  intro rs' only r _ root _ o' ho'
  obtain ⟨x, hx, rfl⟩ := List.mem_map.1 ho'
  obtain ⟨o, ho, e⟩ := only x hx
  refine ⟨o, ho, ?_⟩
  split <;> exact e

/-! ## From the preparation to the end of the commit -/

/-- Where no shared object is entered twice, each has one working copy. -/
theorem Arena.Places.copy_unique {a : Arena} {own : List Record} {r r' : Record} {root : Nat} (h : a.Places layout own)
    (once : ((own.filterMap Record.pair?).map Prod.fst).Nodup) (hr : r ∈ own) (hr' : r' ∈ own) (hk : r.kind = .copyOf root)
    (hk' : r'.kind = .copyOf root) : r = r' := by
  have pair : (root, r.addr) ∈ own.filterMap Record.pair? :=
    List.mem_filterMap.2 ⟨r, hr, Record.pair?_eq_some.2 ⟨hk, rfl⟩⟩
  have pair' : (root, r'.addr) ∈ own.filterMap Record.pair? :=
    List.mem_filterMap.2 ⟨r', hr', Record.pair?_eq_some.2 ⟨hk', rfl⟩⟩
  have e := List.inj_on_of_nodup_map once pair pair' rfl
  exact h.eq_of_addr hr hr' (Prod.mk.inj e).2

theorem Intact.copy_unique {tx : Transaction} {r r' : Record} {root : Nat} (h : Intact layout own tx) (hr : r ∈ own)
    (hr' : r' ∈ own) (hk : r.kind = .copyOf root) (hk' : r'.kind = .copyOf root) : r = r' := by
  have once := h.once
  rw [h.pairs] at once
  exact h.nursery.copy_unique once hr hr' hk hk'

/-- An apply after this preparation delivers. -/
theorem Going.delivered {tx : Transaction} (ready : Ready layout own shared p₀) (h : Going layout own shared p₀ True g p)
    (finished : Finished layout own g) (intact : Intact layout own tx) (rooted : RootedIn own shared) :
    Delivered layout own g.moves shared (Ledger.overwritten p.tx.nursery.memory own
      (shared ++ Ledger.twinsOf own p.tx.nursery.memory p.shared.memory true)) := by
  refine ⟨?_, ?_, ?_⟩
  · intro o ho
    obtain ⟨o', ho', addr, typeId, size, header, none, one⟩ :=
      overwritten_old own p.tx.nursery.memory (List.mem_append_left _ ho)
    refine ⟨o', ho', addr, typeId, size, header, none, ?_⟩
    intro r hr hk
    have body := h.nursery.body _ (List.mem_map_of_mem (f := g.own) hr)
    rw [Record.bodyAddr, Record.bodySize, (h.shape r hr).1, (h.shape r hr).2.2] at body
    rw [one r hr hk fun x hx hkx => intact.copy_unique hx hr hkx hk, Record.bodyAddr, Record.bodySize, body]
    exact h.translates ready finished (.root hr hk)
  · intro x hx
    obtain ⟨t, ht, addr⟩ := Progress.mem_moves.1 (show (x.1, x.2) ∈ g.moves from hx)
    obtain ⟨hr, hk, typeId, size, kind⟩ := h.twins x.1 t ht
    have mem : (⟨x.2, x.1.typeId, x.1.size, .shared true false, p.shared.memory.read (x.2 + headerSize) x.1.bodySize, []⟩ :
        Record) ∈ Ledger.twinsOf own p.tx.nursery.memory p.shared.memory true :=
      List.mem_filterMap.2 ⟨x.1, hr, twin?_eq_some.2 ⟨hk, x.2, (h.twinOf?_iff ready hr).2 hx, rfl⟩⟩
    obtain ⟨o', ho', addr', typeId', size', header', none, -⟩ :=
      overwritten_old own p.tx.nursery.memory (List.mem_append_right shared mem)
    refine ⟨o', ho', addr', typeId', size', header', ?_⟩
    -- a twin is no root, for it lies above all that was there before
    rw [none ?_]
    · have body := h.shared.body t (twin_mem ht)
      rw [Record.bodyAddr, Record.bodySize, size, addr] at body
      show Translates layout own g.moves x.1 (p.shared.memory.read (x.2 + headerSize) x.1.bodySize)
      rw [Record.bodySize, body]
      exact h.translates ready finished (.twin ht)
    · intro r hr' hk'
      obtain ⟨o, ho, e, -⟩ := rooted r hr' _ hk'
      have := (ready.keeps.inside o ho).2
      have := ready.keeps.headerSize_le ho
      have := (h.above x.1 t ht).1
      simp only [Record.stop, headerSize, wordSize] at *
      omega
  · intro o ho
    obtain ⟨o₀, ho₀, e⟩ := overwritten_only o ho
    rcases List.mem_append.mp ho₀ with ho₀ | ho₀
    · exact .inl ⟨o₀, ho₀, e⟩
    · obtain ⟨r, hr, htwin⟩ := List.mem_filterMap.1 ho₀
      obtain ⟨-, twin, htwin, same⟩ := twin?_eq_some.1 htwin
      have addr : o₀.addr = twin := by rw [same]
      exact .inr ⟨(r, twin), (h.twinOf?_iff ready hr).1 htwin, addr.symm.trans e⟩

end

end TxHeap
