/-
  TxHeap.Proofs.Mirror — the object map and the version slots tell the same.

  A transaction knows its working copies twice: by its object map, which leads from a shared
  object to the copy, and by the version slot of the copy, which leads back. In a careful run
  the two agree at all times and in every phase (`Mirrored`): copies are entered when they are
  made, a preparation forwards no copy, and no other thread has a part in either. So there is
  no call that finds a second copy of an object, or a copy that is in no map
  (`Failure.isMismatch`).
-/
import TxHeap.Proofs.Mismatch
import TxHeap.Proofs.Standing

namespace TxHeap

structure Mirrored (layout : Layout) (shared own : List Record) (tx : Transaction) : Prop where
  places : tx.nursery.Places layout own
  pairs : tx.objects.pairs = own.filterMap Record.pair?
  once : (tx.objects.pairs.map Prod.fst).Nodup
  kinds : ∀ r ∈ own, r.kind = .fresh ∨ ∃ root, r.kind = .copyOf root ∧ root ≠ 0
  /-- A working copy keeps the header it was made with. -/
  header : ∀ r ∈ own, ∀ root, r.kind = .copyOf root → tx.nursery.memory.headerAt r.addr = r.header
  /-- Any other object is no copy, whether it was promoted or not. -/
  fresh : ∀ r ∈ own, r.kind = .fresh → ∀ root, (tx.nursery.memory.headerAt r.addr).version ≠ .copyOf root
  rooted : RootedIn own shared

section

variable {layout : Layout} {own shared shared' : List Record} {tx : Transaction} {nursery : Arena} {r : Record} {size : Nat}

namespace Mirrored

theorem of_intact (h : Intact layout own tx) (rooted : RootedIn own shared) : Mirrored layout shared own tx := by
  refine ⟨h.nursery.toPlaces, h.pairs, h.once, ?_, fun r hr _ _ => h.nursery.header r hr, ?_, rooted⟩
  · intro r hr
    exact (h.kinds r hr).imp id fun ⟨root, hk, pos, _⟩ => ⟨root, hk, Nat.pos_iff_ne_zero.1 pos⟩
  · intro r hr hk root
    rw [h.nursery.header r hr, Record.header, hk]
    intro e
    cases e

/-- Shared objects may come and be marked. -/
theorem widen (h : Mirrored layout shared own tx) (wider : RootedIn own shared → RootedIn own shared') :
    Mirrored layout shared' own tx :=
  { h with rooted := wider h.rooted }

theorem grow (h : Mirrored layout shared own tx) (g : tx.nursery.Grew nursery size) :
    Mirrored layout shared own { tx with nursery } := by
  refine ⟨h.places.grow g, h.pairs, h.once, h.kinds, ?_, ?_, h.rooted⟩
  · rw [g.memory]
    exact h.header
  · rw [g.memory]
    exact h.fresh

end Mirrored

/-- A preparation forwards fresh objects only. -/
theorem Going.mirrored {p₀ p : Preparation} {late : Prop} {g : Progress} (ready : Ready layout own shared p₀)
    (h : Going layout own shared p₀ late g p) (intact : Intact layout own p₀.tx) (rooted : RootedIn own shared')
    (nursery : tx.nursery = p.tx.nursery) (objects : tx.objects = p.tx.objects) : Mirrored layout shared' own tx := by
  have prepared := h.prepared ready nursery objects
  have before := Mirrored.of_intact intact rooted
  refine ⟨prepared.places, prepared.pairs, ?_, before.kinds, prepared.header, ?_, rooted⟩
  · rw [objects, h.onward.objects]
    exact before.once
  · intro r hr hk root
    rw [nursery]
    rcases h.header_fresh hr hk with ⟨twin, -, hh, hne⟩ | ⟨-, hh⟩
    · rw [(Arena.header_eq_ok.1 hh).2, version_forwarded hne]
      exact nofun
    · rw [(Arena.header_eq_ok.1 hh).2]
      exact nofun

end

/-! ## What calls do to it -/

section

variable {s s' : Session} {L : Ledger} {c : Command} {o : Outcome} {t : Nat} {own : List Record} {tx : Transaction}

def Session.AllMirrored (s : Session) (L : Ledger) : Prop := s.Each L (Mirrored s.heap.layout L.shared)

/-- An active transaction is intact; in another phase the copies and the map are those that it was prepared with. -/
theorem Turn.mirrored (turn : Turn s L t c o s' own tx) (h : Kept s L) (mirrored : s.AllMirrored L) (care : careful s L c)
    (unstopped : Unstopped s c o) (wider : ∀ own, RootedIn own L.shared → RootedIn own (L.record s c o s').shared) :
    Mirrored s.heap.layout (L.record s c o s').shared own tx := by
  have backed := turn.backed h care unstopped wider
  have active : tx.phase = .active → Mirrored s.heap.layout (L.record s c o s').shared own tx := fun hactive =>
    .of_intact (turn.intact h.ground.sound (h.intact t) care.storesAim (fun _ => unstopped) hactive) (backed.rooted (.inl hactive))
  have old : ∀ {tx}, s.tx? t = some tx → Mirrored s.heap.layout (L.record s c o s').shared (L.own t) tx :=
    fun htx => (mirrored t _ htx).widen (wider _)
  have prepared : ∀ {tx₀ p late g}, s.tx? t = some tx₀ → tx₀.phase = .active → L.FieldsAim s t →
      Going s.heap.layout (L.own t) L.shared (.ofHeap s.heap tx₀) late g p → tx.nursery = p.tx.nursery →
      tx.objects = p.tx.objects → Mirrored s.heap.layout (L.record s c o s').shared (L.own t) tx :=
    fun htx hactive aim going => going.mirrored (h.ready htx hactive aim) (h.intact t _ htx hactive) (old htx).rooted
  cases turn with
  | same htx => exact old htx
  | started => exact active rfl
  | issued htx => exact { old htx with }
  | grew htx grew => exact (old htx).grow grew
  | created _ hactive | copied _ hactive | wrote _ hactive => exact active hactive
  | prepared htx hactive hrun =>
    obtain ⟨g, going, -⟩ := (h.run htx hactive (care.2 t rfl)).of_ok hrun
    exact prepared htx hactive (care.2 t rfl) going rfl rfl
  | stopped htx hactive hf => exact (unstopped.not_stopped htx hactive hf).elim
  | prepareFailed htx hactive hrun =>
    obtain ⟨-, g, going⟩ := (h.run htx hactive (care.2 t rfl)).of_error hrun
    exact prepared htx hactive (care.2 t rfl) going rfl rfl
  | passed htx => exact { old htx with }

theorem Effect.mirrored (h : Kept s L) (mirrored : s.AllMirrored L) (care : careful s L c) (e : Effect s c o s') :
    s'.AllMirrored (L.record s c o s') := by
  have unstopped := h.unstopped care e
  intro t tx htx
  rw [e.follows.layout]
  exact (e.turn h.ground htx).mirrored h mirrored care unstopped ((e.entry h.ground).settled h unstopped).2

theorem Lived.mirrored (h : Lived careful s L) : s.AllMirrored L :=
  (h.alongside (I := Session.AllMirrored) careful_divides id each_create fun kept mirrored care e =>
    e.mirrored kept mirrored care).2

end

/-! ## The object map of every open transaction -/

/-- Entries lead from shared objects that are marked to working copies, and back. -/
structure ObjectMap.Mirrors (m : ObjectMap) (shared nursery : Arena) (objects own : List Record) : Prop where
  roots_nodup : (m.pairs.map Prod.fst).Nodup
  copies_nodup : (m.pairs.map Prod.snd).Nodup
  places : ∀ root copy, (root, copy) ∈ m.pairs → (∃ o ∈ objects, o.addr = root) ∧ ∃ r ∈ own, r.addr = copy
  headers : ∀ root copy, (root, copy) ∈ m.pairs → ∃ h h', shared.header root = .ok h ∧ nursery.header copy = .ok h' ∧
    h.isGlobal = true ∧ h.isCopied = true ∧ h'.typeId = h.typeId ∧ h'.isGlobal = false ∧ h'.isCopied = false ∧
    h'.version = .copyOf root
  /-- Whatever says that it is a copy is the one in the map. -/
  back : ∀ r ∈ own, ∀ h root, nursery.header r.addr = .ok h → h.version = .copyOf root → m.copyOf? root = some r.addr

/-- An entry is found where no object is entered twice. -/
theorem ObjectMap.copyOf?_of_mem {m : ObjectMap} {root copy : Nat} (once : (m.pairs.map Prod.fst).Nodup)
    (h : (root, copy) ∈ m.pairs) : m.copyOf? root = some copy := by
  cases found : m.copyOf? root with
  | none =>
    have absent := List.lookup_eq_none_iff.1 found (root, copy) h
    simp at absent
  | some copy' =>
    rw [(Prod.mk.inj (List.inj_on_of_nodup_map once (mem_of_copyOf? found) h rfl)).2]

/-- A working copy is neither shared nor marked. -/
theorem flags_copyHeader {typeId root : Nat} :
    (Action.copyHeader typeId root).isGlobal = false ∧ (Action.copyHeader typeId root).isCopied = false := by
  show Nat.testBit (0 &&& Flag.untagged &&& Flag.untagged ||| Flag.copyOf) 0 = false ∧
    Nat.testBit (0 &&& Flag.untagged &&& Flag.untagged ||| Flag.copyOf) 1 = false
  decide

section

variable {layout : Layout} {shared : Arena} {objects own : List Record} {tx : Transaction} {r : Record}

theorem Mirrored.mem_pairs {root copy : Nat} (h : Mirrored layout objects own tx) :
    (root, copy) ∈ tx.objects.pairs ↔ ∃ r ∈ own, r.kind = .copyOf root ∧ r.addr = copy := by
  rw [h.pairs, List.mem_filterMap]
  exact exists_congr fun r => and_congr_right fun _ => Record.pair?_eq_some

/-- Nothing but a working copy has the version slot of one. -/
theorem Mirrored.kind_of_version {root : Nat} (h : Mirrored layout objects own tx) (hr : r ∈ own)
    (hv : (tx.nursery.memory.headerAt r.addr).version = .copyOf root) : r.kind = .copyOf root := by
  rcases h.kinds r hr with hk | ⟨root', hk, ne⟩
  · exact absurd hv (h.fresh r hr hk root)
  · rw [h.header r hr root' hk, Record.header, hk] at hv
    rw [hk, Kind.copyOf.injEq]
    exact Version.copyOf.inj ((version_copyHeader ne).symm.trans hv)

theorem Mirrored.mirrors (h : Mirrored layout objects own tx) (keeps : shared.Keeps layout objects) :
    tx.objects.Mirrors shared tx.nursery objects own := by
  refine ⟨h.once, ?_, ?_, ?_, ?_⟩
  · -- two working copies do not lie at one place
    rw [h.pairs, List.Nodup, List.pairwise_map, List.pairwise_filterMap]
    refine h.places.nodup.imp_of_mem fun {r r'} hr hr' ne pair hpair pair' hpair' e => ne ?_
    refine h.places.eq_of_addr hr hr' ?_
    rw [(Record.pair?_eq_some.1 hpair).2, (Record.pair?_eq_some.1 hpair').2, e]
  · intro root copy hpair
    obtain ⟨r, hr, hk, addr⟩ := h.mem_pairs.1 hpair
    obtain ⟨o, ho, haddr, -⟩ := h.rooted r hr root hk
    exact ⟨⟨o, ho, haddr⟩, r, hr, addr⟩
  · intro root copy hpair
    obtain ⟨r, hr, hk, rfl⟩ := h.mem_pairs.1 hpair
    obtain ⟨o, ho, rfl, typeId, -, whole, marked⟩ := h.rooted r hr root hk
    obtain ⟨global, -, copied⟩ := Record.header_shared marked
    have header : r.header = Action.copyHeader r.typeId o.addr := by rw [Record.header, hk]
    have version : r.header.version = .copyOf o.addr := by
      rw [header]
      exact version_copyHeader (Nat.pos_iff_ne_zero.1 (keeps.addr_pos ho))
    have same : r.header.typeId = o.header.typeId := by rw [Record.header_typeId, Record.header_typeId, typeId]
    have flags : r.header.isGlobal = false ∧ r.header.isCopied = false := by
      rw [header]
      exact flags_copyHeader
    obtain ⟨notGlobal, notCopied⟩ := flags
    have copy : tx.nursery.header r.addr = .ok r.header :=
      Arena.header_eq_ok.2 ⟨h.places.header_spans hr, h.header r hr o.addr hk⟩
    exact ⟨_, _, keeps.header_eq ho, copy, global, copied, same, notGlobal, notCopied, version⟩
  · intro r hr header root hh hv
    rw [← (Arena.header_eq_ok.1 hh).2] at hv
    exact ObjectMap.copyOf?_of_mem h.once (h.mem_pairs.2 ⟨r, hr, h.kind_of_version hr hv, rfl⟩)

end

section

variable {s : Session} {L : Ledger} {c : Command}

/-- A preparation over known objects finds no mismatch. -/
theorem Prepare.Stuck.isMismatch_eq {thread : Nat} {short : Prop} {stray : Nat → Prop} {f : Failure}
    (h : Stuck thread short stray f) : f.isMismatch = false := by
  cases h <;> rfl

/-- No careful call ends with a mismatch. -/
theorem Kept.matched (h : Kept s L) (care : careful s L c) :
    Step.Ends c.action s (fun _ _ => True) fun f _ => f.isMismatch = false := by
  have ran : ∀ {t}, L.FieldsAim s t → ∀ tx, s.tx? t = some tx → tx.phase = .active →
      Step.Ends (Prepare.run s.heap.layout t) (.ofHeap s.heap tx) (fun _ _ => True) fun f _ => f.isMismatch = false :=
    fun aim tx htx hactive => (h.run htx hactive aim).mono (fun _ _ _ => trivial) fun _ _ hf => hf.1.isMismatch_eq
  by_cases hp : ∃ t, c = .prepare t
  · obtain ⟨t, rfl⟩ := hp
    exact Step.ends_map.2 (Action.ends_prepare_matched (ran (care.2 t rfl)))
  · by_cases hc : ∃ t, c = .commit t
    · obtain ⟨t, rfl⟩ := hc
      exact Step.ends_map.2 (Action.ends_commit_matched (ran (care.2 t rfl)))
    · have matched := Action.matched_of_not_prepare (fun t e => hp ⟨t, e⟩) fun t e => hc ⟨t, e⟩
      exact (matched s).mono (fun _ _ _ => trivial) fun _ _ failed => failed.2

/--
In every state of a careful run the object map of each open transaction mirrors the version
slots, and no careful call, in either form, finds that it does not.
-/
theorem object_maps_mirror_versions (life : Lived careful s L) :
    (∀ t tx, s.tx? t = some tx → tx.objects.Mirrors s.heap.shared tx.nursery L.shared (L.own t)) ∧
      ∀ c f, careful s L c → (s.step c).1 = .error f ∨ (s.stepOrFatal c).1 = .error f → f.isMismatch = false := by
  have kept := life.kept
  refine ⟨fun t tx htx => (life.mirrored t tx htx).mirrors kept.shared, ?_⟩
  intro c f care failed
  have matched := kept.matched care
  unfold Step.Ends at matched
  rw [Session.step, Session.stepOrFatal, Session.perform, Session.perform, Action.orFatal] at failed
  cases hx : c.action s with
  | ok r s' =>
    rw [hx] at failed
    rcases failed with e | e <;> cases e
  | error f' s' =>
    rw [hx] at failed matched
    rcases failed with e | e
    · cases e
      exact matched
    · cases e
      rw [Failure.isMismatch_escalate]
      exact matched

/--
Two workers have copies of the root. One has prepared, which forwarded its other object;
the copy of the other worker points to that object.
-/
def rivals : List Command :=
  let root := sharedStart
  let copy := nurseryStart
  let x := copy + 48
  let other := nurseryStart + 65536
  [.attachMain, .create mainThread 0, .attachWorker, .attachWorker, .start 1, .start 2, .copyOnWrite 1 root,
    .copyOnWrite 2 root, .create 1 0, .write 1 copy 0 x, .prepare 1, .write 2 other 0 x]

/-- The prepared copy is still the one in the map, and the other worker cannot prepare, but not for a mismatch. -/
theorem object_maps_mirror_versions_rivals :
    (∃ tx, (Session.ofNodes.run rivals).2.tx? 1 = some tx ∧ tx.phase = .prepared ∧
      tx.objects.pairs = [(sharedStart, nurseryStart)] ∧
      tx.objects.Mirrors (Session.ofNodes.run rivals).2.heap.shared tx.nursery (Ledger.empty.along .ofNodes rivals).shared
        ((Ledger.empty.along .ofNodes rivals).own 1)) ∧
      ∃ f, ((Session.ofNodes.run rivals).2.step (.prepare 2)).1 = .error f ∧ f.isMismatch = false := by
  have life : Lived careful (Session.ofNodes.run rivals).2 (Ledger.empty.along .ofNodes rivals) :=
    .ofNodes (by decide +kernel)
  obtain ⟨mirrors, matched⟩ := object_maps_mirror_versions life
  constructor
  · have facts : ((Session.ofNodes.run rivals).2.tx? 1).map (fun tx => (tx.phase, tx.objects.pairs)) =
        some (.prepared, [(sharedStart, nurseryStart)]) := by decide +kernel
    obtain ⟨tx, htx, e⟩ := Option.map_eq_some_iff.1 facts
    exact ⟨tx, htx, (Prod.mk.inj e).1, (Prod.mk.inj e).2, mirrors 1 tx htx⟩
  · have foreign : ((Session.ofNodes.run rivals).2.step (.prepare 2)).1 =
        .error (.refused (.foreignAddress (nurseryStart + 48) 2)) := by decide +kernel
    exact ⟨_, foreign, matched (.prepare 2) _ (by decide +kernel) (.inl foreign)⟩

end

end TxHeap
