/-
  TxHeap.Proofs.Carving — what buffers hand out of a shared heap they do not have to themselves.

  A request that fits the rest of the chunk moves the cursor and asks nobody. One that does
  not gets the first bytes of a new chunk, or is refused by the shared heap with nothing
  changed (`Carves`, `carves_allocate`). Between two requests others may take bytes of the
  shared heap, and another buffer may take this one's place, so the chunks of a buffer do not
  follow on one another and the rest of a chunk may be lost (`Supply`).

  What keeps all ranges apart is that nothing handed out reaches into the rest of the chunk,
  from the cursor to the limit (`Carved.spare`). The rest is handed out upwards, and whatever
  else is handed out starts at the free pointer, which is not below the limit.
-/
import TxHeap.Proofs.Blocks
import TxHeap.Proofs.ByteMap

namespace TxHeap

namespace TwinBuffer

variable {b : TwinBuffer} {shared : Arena} {size start reserve chunk : Nat}

/-- The buffer with a new chunk of which the first `size` bytes are handed out. -/
def onto (b : TwinBuffer) (start chunk size : Nat) : TwinBuffer :=
  { b with cursor := start + size, limit := start + chunk, reserved := b.reserved + chunk }

inductive Carves (b : TwinBuffer) (shared : Arena) (size : Nat) : Attempt (Nat × TwinBuffer × Arena) → Prop
  /-- The bytes fit the rest of the chunk. -/
  | fits : size ≤ b.free → b.cursor ≠ 0 →
      Carves b shared size (.ok (b.cursor, { b with cursor := b.cursor + size }, shared))
  /-- The bytes are the first of a new chunk. -/
  | refilled {grown : Arena} : b.free < size →
      shared.allocate (max size b.pageSize) = .ok (shared.freePointer, grown) →
      Carves b shared size (.ok (shared.freePointer, b.onto shared.freePointer (max size b.pageSize) size, grown))
  /-- There is no room for a new chunk. -/
  | refused : b.free < size → shared.reserve < shared.used + max size b.pageSize →
      Carves b shared size (.error (.refused (.outOfSpace (max size b.pageSize) shared.remaining)))
  /-- No bytes are asked for, and there is no chunk that they could be at. -/
  | nowhere : size = 0 → b.cursor = 0 → Carves b shared size (.error (.refused (.invalidAccess 0 0)))

theorem allocate_of_fits (fits : size ≤ b.free) (chunk : b.cursor ≠ 0) :
    b.allocate shared size = .ok (b.cursor, { b with cursor := b.cursor + size }, shared) := by
  have room : b.makeRoom shared size = .ok (b, shared) := if_neg (Nat.not_lt.2 fits)
  rw [allocate, room, Attempt.bind_eq_ok]
  exact ⟨_, rfl, Attempt.demand_bind_eq_ok.2 ⟨chunk, rfl⟩⟩

theorem allocate_of_short {grown : Arena} (short : b.free < size)
    (given : shared.allocate (max size b.pageSize) = .ok (shared.freePointer, grown)) :
    b.allocate shared size =
      .ok (shared.freePointer, b.onto shared.freePointer (max size b.pageSize) size, grown) := by
  have room : b.makeRoom shared size =
      .ok (b.onto shared.freePointer (max size b.pageSize) 0, grown) := by
    rw [makeRoom, if_pos short, refill, given]
    rfl
  have start : shared.freePointer ≠ 0 := by
    have := shared.start_pos
    simp only [Arena.freePointer]
    omega
  rw [allocate, room, Attempt.bind_eq_ok]
  exact ⟨_, rfl, Attempt.demand_bind_eq_ok.2 ⟨start, rfl⟩⟩

/-- The shared heap is asked before anything is changed. -/
theorem allocate_of_full (short : b.free < size) (full : shared.reserve < shared.used + max size b.pageSize) :
    b.allocate shared size = .error (.refused (.outOfSpace (max size b.pageSize) shared.remaining)) := by
  have refused : shared.allocate (max size b.pageSize) =
      .error (.refused (.outOfSpace (max size b.pageSize) shared.remaining)) := dif_neg (Nat.not_le.2 full)
  rw [allocate, makeRoom, if_pos short, refill, refused]
  rfl

/-- A small heap refuses a chunk only where its reserve is too small. -/
theorem carves_allocate (backed : shared.Backed start reserve chunk) (chunkless : b.cursor = 0 → b.limit = 0)
    (size : Nat) : b.Carves shared size (b.allocate shared size) := by
  by_cases short : b.free < size
  · by_cases room : shared.used + max size b.pageSize ≤ shared.reserve
    · obtain ⟨grown, given, -⟩ := backed.allocate room
      rw [allocate_of_short short given]
      exact .refilled short given
    · rw [allocate_of_full short (Nat.not_le.1 room)]
      exact .refused short (Nat.not_le.1 room)
  · by_cases bare : b.cursor = 0
    · have empty : size = 0 := by
        simp only [free, chunkless bare, bare] at short
        omega
      subst empty
      have room : b.makeRoom shared 0 = .ok (b, shared) := if_neg short
      have nowhere : Attempt.demand (b.cursor ≠ 0) (.invalidAccess 0 0) = .error (.refused (.invalidAccess 0 0)) :=
        if_neg fun held => held bare
      rw [allocate, room]
      simp only [bind, Except.bind, nowhere]
      exact .nowhere rfl bare
    · rw [allocate_of_fits (Nat.not_lt.1 short) bare]
      exact .fits (Nat.not_lt.1 short) bare

end TwinBuffer

/-! ## Several buffers on one heap -/

/-- Bytes that were taken, and what for; buffers are numbered in the order in which they were opened. -/
inductive Grant where
  /-- Handed out by the shared heap itself. -/
  | direct (block : Block)
  /-- Taken from the shared heap by a buffer. -/
  | chunk (buffer : Nat) (block : Block)
  /-- Handed out by a buffer. -/
  | part (buffer : Nat) (block : Block)
  deriving DecidableEq, Repr

namespace Grant

def handed? : Grant → Option Block
  | .direct block | .part _ block => some block
  | .chunk _ _ => none

/-- The bytes that the shared heap itself handed out. -/
def directSize : Grant → Nat
  | .direct block => block.size
  | .chunk _ _ | .part _ _ => 0

end Grant

/-- A shared heap, the buffer in use on it, and what was taken so far. -/
structure Supply where
  shared : Arena
  /-- The page size with which the buffer was opened. -/
  page : Nat
  buffer : TwinBuffer
  /-- The buffers that were replaced, the latest first. -/
  former : List TwinBuffer
  grants : List Grant

namespace Supply

inductive Request where
  /-- Bytes from the buffer. -/
  | carve (size : Nat)
  /-- Bytes from the shared heap itself. -/
  | direct (size : Nat)
  /-- Another buffer takes the place of the one in use. -/
  | renew (page : Nat)

def new (shared : Arena) (page : Nat) : Supply := ⟨shared, page, .new page, [], []⟩

def number (s : Supply) : Nat := s.former.length

def buffers (s : Supply) : List TwinBuffer := s.buffer :: s.former

def handed (s : Supply) : List Block := s.grants.filterMap Grant.handed?

def directBytes (s : Supply) : Nat := (s.grants.map Grant.directSize).sum

def reserved (s : Supply) : Nat := (s.buffers.map TwinBuffer.reserved).sum

def after (s : Supply) (shared : Arena) (buffer : TwinBuffer) (grants : List Grant) : Supply :=
  { s with shared, buffer, grants := s.grants ++ grants }

/-- The bytes by which the shared heap grew while the buffer was asked. -/
def taken (s : Supply) (shared : Arena) : List Grant :=
  if shared.used = s.shared.used then []
  else [.chunk s.number ⟨s.shared.freePointer, shared.used - s.shared.used⟩]

def perform (s : Supply) : Request → Attempt Supply
  | .carve size => do
    let (addr, buffer, shared) ← s.buffer.allocate s.shared size
    return s.after shared buffer (s.taken shared ++ [.part s.number ⟨addr, size⟩])
  | .direct size => do
    let (addr, shared) ← s.shared.allocate size
    return s.after shared s.buffer [.direct ⟨addr, size⟩]
  | .renew page => return { s with page, buffer := .new page, former := s.buffer :: s.former }

def serve (s : Supply) : List Request → Supply
  | [] => s
  | r :: rs =>
    match s.perform r with
    | .ok s' => s'.serve rs
    | .error _ => s.serve rs

/-- All that was handed out is apart and accounted for, and out of the way of what comes next. -/
structure Carved (start reserve chunk : Nat) (s : Supply) : Prop where
  backed : s.shared.Backed start reserve chunk
  covers : s.shared.Covers s.handed
  whole : ∀ i b, .part i b ∈ s.grants → ∃ c : Block, .chunk i c ∈ s.grants ∧ b.Within c.start c.size
  counted : s.shared.used = s.directBytes + s.reserved
  ordered : ∀ b ∈ s.buffers, b.cursor ≤ b.limit ∧ b.limit ≤ s.shared.freePointer
  pageSize : s.buffer.pageSize = max s.page 1
  /-- At first there is no chunk. -/
  current : s.buffer.cursor = 0 ∧ s.buffer.limit = 0 ∨
    ∃ c : Block, .chunk s.number c ∈ s.grants ∧ s.shared.start ≤ c.start ∧ c.start ≤ s.buffer.cursor ∧
      s.buffer.limit = c.stop
  /-- Nothing handed out reaches into the rest of the chunk. -/
  spare : ∀ b ∈ s.handed, b.stop ≤ s.buffer.cursor ∨ s.buffer.limit ≤ b.start

section

variable {s t : Supply} {shared : Arena} {buffer : TwinBuffer} {gs : List Grant}
  {start reserve chunk size addr : Nat}

theorem handed_after (s : Supply) (shared : Arena) (buffer : TwinBuffer) (gs : List Grant) :
    (s.after shared buffer gs).handed = s.handed ++ gs.filterMap Grant.handed? :=
  List.filterMap_append

/-- What holds of all that was handed out, and of the block handed out now. -/
theorem forall_handed_after {P : Block → Prop} {b : Block} (h : ∀ b ∈ s.handed, P b)
    (only : gs.filterMap Grant.handed? = [b]) (hb : P b) : ∀ b ∈ (s.after shared buffer gs).handed, P b := by
  rw [handed_after, only, List.forall_mem_append, List.forall_mem_singleton]
  exact ⟨h, hb⟩

theorem directBytes_after (s : Supply) (shared : Arena) (buffer : TwinBuffer) (gs : List Grant) :
    (s.after shared buffer gs).directBytes = s.directBytes + (gs.map Grant.directSize).sum := by
  simp only [directBytes, after, List.map_append, List.sum_append]

theorem reserved_after (s : Supply) (shared : Arena) (buffer : TwinBuffer) (gs : List Grant) :
    (s.after shared buffer gs).reserved + s.buffer.reserved = s.reserved + buffer.reserved := by
  simp only [reserved, buffers, after, List.map_cons, List.sum_cons]
  omega

theorem taken_same (s : Supply) : s.taken s.shared = [] := if_pos rfl

theorem taken_grew (grew : s.shared.Grew shared size) (pos : 0 < size) :
    s.taken shared = [.chunk s.number ⟨s.shared.freePointer, size⟩] := by
  rw [taken, if_neg (by have := grew.used; omega), grew.used, Nat.add_sub_cancel_left]

/-! ### What one request keeps -/

namespace Carved

theorem chunkless (h : s.Carved start reserve chunk) : s.buffer.cursor = 0 → s.buffer.limit = 0 := by
  intro bare
  rcases h.current with ⟨-, limit⟩ | ⟨c, -, inside, behind, -⟩
  · exact limit
  · have := s.shared.start_pos
    omega

theorem serves (h : s.Carved start reserve chunk) (size : Nat) :
    s.buffer.Carves s.shared size (s.buffer.allocate s.shared size) :=
  TwinBuffer.carves_allocate h.backed h.chunkless size

/-- What the shared heap gives lies at its free pointer. -/
theorem grew (h : s.Carved start reserve chunk) (given : s.shared.allocate size = .ok (addr, shared)) :
    addr = s.shared.freePointer ∧ s.shared.Grew shared size ∧ shared.Backed start reserve chunk := by
  obtain ⟨rfl, grew⟩ := Arena.grew_of_allocate given
  have room : s.shared.used + size ≤ s.shared.reserve := by
    rw [← grew.used, ← grew.reserve]
    exact shared.used_le
  obtain ⟨shared', given', -, backed⟩ := h.backed.allocate room
  cases given.symm.trans given'
  exact ⟨rfl, grew, backed⟩

theorem whole_after (h : s.Carved start reserve chunk)
    (new : ∀ i b, .part i b ∈ gs → ∃ c : Block, .chunk i c ∈ s.grants ++ gs ∧ b.Within c.start c.size) :
    ∀ i b, .part i b ∈ s.grants ++ gs → ∃ c : Block, .chunk i c ∈ s.grants ++ gs ∧ b.Within c.start c.size := by
  intro i b hb
  rcases List.mem_append.mp hb with hb | hb
  · obtain ⟨c, hc, within⟩ := h.whole i b hb
    exact ⟨c, List.mem_append_left _ hc, within⟩
  · exact new i b hb

theorem direct (h : s.Carved start reserve chunk) (given : s.shared.allocate size = .ok (addr, shared)) :
    (s.after shared s.buffer [.direct ⟨addr, size⟩]).Carved start reserve chunk := by
  obtain ⟨rfl, grew, backed⟩ := h.grew given
  refine ⟨backed, ?covers, ?whole, ?counted, ?ordered, h.pageSize, ?current, ?spare⟩
  case covers =>
    rw [handed_after]
    exact h.covers.grow grew
  case whole => exact h.whole_after fun i b hb => by simp at hb
  case counted =>
    have reserved := s.reserved_after shared s.buffer [.direct ⟨s.shared.freePointer, size⟩]
    have direct : ([.direct ⟨s.shared.freePointer, size⟩].map Grant.directSize).sum = size := Nat.add_zero size
    have used : (s.after shared s.buffer [.direct ⟨s.shared.freePointer, size⟩]).shared.used = _ := grew.used
    rw [directBytes_after, direct, used, h.counted]
    omega
  case ordered =>
    intro b hb
    obtain ⟨order, le⟩ := h.ordered b hb
    exact ⟨order, Nat.le_trans le (Nat.le.intro grew.freePointer.symm)⟩
  case current =>
    refine h.current.imp_right fun ⟨c, hc, inside, rest⟩ => ⟨c, List.mem_append_left _ hc, ?_, rest⟩
    exact Nat.le_trans (Nat.le_of_eq grew.start) inside
  case spare => exact forall_handed_after h.spare rfl (.inr (h.ordered s.buffer List.mem_cons_self).2)

/-- The next bytes of the chunk overlap nothing, since nothing reaches into the rest of it. -/
theorem fit (h : s.Carved start reserve chunk) (fits : size ≤ s.buffer.free) (held : s.buffer.cursor ≠ 0) :
    (s.after s.shared { s.buffer with cursor := s.buffer.cursor + size } [.part s.number ⟨s.buffer.cursor, size⟩]).Carved
      start reserve chunk := by
  obtain ⟨c, hc, inside, behind, stop⟩ := h.current.resolve_left fun bare => held bare.1
  obtain ⟨order, taken⟩ := h.ordered s.buffer List.mem_cons_self
  have room : s.buffer.cursor + size ≤ s.buffer.limit := by
    simp only [TwinBuffer.free] at fits
    omega
  refine ⟨h.backed, ⟨?apart, ?inside⟩, ?whole, ?counted, ?ordered, h.pageSize, ?current, ?spare⟩
  case apart =>
    rw [handed_after]
    refine List.pairwise_append.2 ⟨h.covers.apart, List.pairwise_singleton _ _, ?_⟩
    intro b hb d hd
    rw [List.mem_singleton.mp hd]
    exact (h.spare b hb).imp_right fun behind => Nat.le_trans room behind
  case inside => exact forall_handed_after h.covers.inside rfl ⟨Nat.le_trans inside behind, Nat.le_trans room taken⟩
  case whole =>
    refine h.whole_after fun i b hb => ?_
    cases List.mem_singleton.mp hb
    exact ⟨c, List.mem_append_left _ hc, behind, Nat.le_trans room (Nat.le_of_eq stop)⟩
  case counted =>
    rw [directBytes_after]
    exact h.counted
  case ordered =>
    intro b hb
    rcases List.mem_cons.mp hb with rfl | hb
    · exact ⟨room, taken⟩
    · exact h.ordered b (List.mem_cons_of_mem _ hb)
  case current =>
    exact .inr ⟨c, List.mem_append_left _ hc, inside, Nat.le_add_right_of_le behind, stop⟩
  case spare =>
    have before : ∀ b ∈ s.handed, b.stop ≤ s.buffer.cursor + size ∨ s.buffer.limit ≤ b.start := fun b hb =>
      (h.spare b hb).imp_left Nat.le_add_right_of_le
    exact forall_handed_after before rfl (.inl (Nat.le_refl _))

/-- The first bytes of a new chunk lie behind everything; the rest of the old chunk is lost. -/
theorem refill {length : Nat} (h : s.Carved start reserve chunk) (enough : size ≤ length)
    (given : s.shared.allocate length = .ok (addr, shared)) :
    (s.after shared (s.buffer.onto addr length size)
      [.chunk s.number ⟨addr, length⟩, .part s.number ⟨addr, size⟩]).Carved start reserve chunk := by
  obtain ⟨rfl, grew, backed⟩ := h.grew given
  generalize hgs : [Grant.chunk s.number ⟨s.shared.freePointer, length⟩, .part s.number ⟨s.shared.freePointer, size⟩] = gs
  have fresh : Grant.chunk s.number ⟨s.shared.freePointer, length⟩ ∈ s.grants ++ gs := by
    rw [← hgs]
    exact List.mem_append_right _ List.mem_cons_self
  have handed : gs.filterMap Grant.handed? = [⟨s.shared.freePointer, size⟩] := by
    rw [← hgs]
    rfl
  have behind : s.shared.freePointer + size ≤ s.shared.freePointer + length := Nat.add_le_add_left enough _
  refine ⟨backed, ?covers, ?whole, ?counted, ?ordered, h.pageSize, ?current, ?spare⟩
  case covers =>
    rw [handed_after, handed]
    refine h.covers.append grew.start (Nat.le.intro grew.freePointer.symm) (List.pairwise_singleton _ _) fun b hb => ?_
    rw [List.mem_singleton.mp hb]
    exact ⟨Nat.le_refl _, Nat.le_trans behind (Nat.le_of_eq grew.freePointer.symm)⟩
  case whole =>
    refine h.whole_after fun i b hb => ⟨⟨s.shared.freePointer, length⟩, ?_⟩
    rw [← hgs] at hb
    simp only [List.mem_cons, reduceCtorEq, Grant.part.injEq, List.not_mem_nil, or_false, false_or] at hb
    obtain ⟨rfl, rfl⟩ := hb
    exact ⟨fresh, Nat.le_refl _, behind⟩
  case counted =>
    have reserved := s.reserved_after shared (s.buffer.onto s.shared.freePointer length size) gs
    have direct : (gs.map Grant.directSize).sum = 0 := by
      rw [← hgs]
      rfl
    have used : (s.after shared (s.buffer.onto s.shared.freePointer length size) gs).shared.used = _ := grew.used
    rw [directBytes_after, direct, used, h.counted]
    simp only [TwinBuffer.onto] at reserved ⊢
    omega
  case ordered =>
    intro b hb
    rcases List.mem_cons.mp hb with rfl | hb
    · exact ⟨behind, Nat.le_of_eq grew.freePointer.symm⟩
    · obtain ⟨order, le⟩ := h.ordered b (List.mem_cons_of_mem _ hb)
      exact ⟨order, Nat.le_trans le (Nat.le.intro grew.freePointer.symm)⟩
  case current =>
    refine .inr ⟨_, fresh, ?_, Nat.le_add_right _ _, rfl⟩
    exact Nat.le_trans (Nat.le_of_eq grew.start) (Nat.le_add_right _ _)
  case spare =>
    have before : ∀ b ∈ s.handed, b.stop ≤ s.shared.freePointer + size := fun b hb =>
      Nat.le_add_right_of_le (h.covers.inside b hb).2
    exact forall_handed_after (fun b hb => .inl (before b hb)) handed (.inl (Nat.le_refl _))

theorem renew (h : s.Carved start reserve chunk) (page : Nat) :
    Carved start reserve chunk { s with page, buffer := .new page, former := s.buffer :: s.former } := by
  refine ⟨h.backed, h.covers, h.whole, ?counted, ?ordered, rfl, .inl ⟨rfl, rfl⟩, fun b _ => .inr (Nat.zero_le _)⟩
  case counted =>
    rw [h.counted]
    simp only [reserved, buffers, directBytes, TwinBuffer.new, List.map_cons, List.sum_cons, Nat.zero_add]
  case ordered =>
    intro b hb
    rcases List.mem_cons.mp hb with rfl | hb
    · exact ⟨Nat.le_refl _, Nat.zero_le _⟩
    · exact h.ordered b hb

theorem carve (h : s.Carved start reserve chunk) (given : s.buffer.allocate s.shared size = .ok (addr, buffer, shared)) :
    (s.after shared buffer (s.taken shared ++ [.part s.number ⟨addr, size⟩])).Carved start reserve chunk := by
  have outcome := h.serves size
  rw [given] at outcome
  cases outcome with
  | fits fits held =>
    rw [taken_same]
    exact h.fit fits held
  | refilled short given =>
    have page := h.pageSize
    rw [taken_grew (h.grew given).2.1 (by omega)]
    exact h.refill (Nat.le_max_left _ _) given

theorem perform {r : Request} (h : s.Carved start reserve chunk) (ok : s.perform r = .ok t) :
    t.Carved start reserve chunk := by
  cases r with
  | carve size =>
    obtain ⟨⟨addr, buffer, shared⟩, given, ok⟩ := Attempt.bind_eq_ok.1 ok
    cases ok
    exact h.carve given
  | direct size =>
    obtain ⟨⟨addr, shared⟩, given, ok⟩ := Attempt.bind_eq_ok.1 ok
    cases ok
    exact h.direct given
  | renew page =>
    cases ok
    exact h.renew page

theorem serve (h : s.Carved start reserve chunk) (rs : List Request) : (s.serve rs).Carved start reserve chunk := by
  induction rs generalizing s with
  | nil => exact h
  | cons r rs ih =>
    rw [Supply.serve]
    cases ok : s.perform r with
    | ok t => exact ih (h.perform ok)
    | error f => exact ih h

end Carved

/-! ### Any run -/

theorem carved_new {a : Arena} (new : Arena.new start reserve chunk = .ok a) (word : chunk < wordLimit)
    (small : reserve < Arena.backingLimit) (page : Nat) : (Supply.new a page).Carved start reserve chunk := by
  have used := (Arena.new_eq_ok new).2.2.2.1
  refine ⟨Arena.backed_of_new new word small, .nil a, nofun, used, ?_, rfl, .inl ⟨rfl, rfl⟩, nofun⟩
  intro b hb
  rw [List.mem_singleton.mp hb]
  exact ⟨Nat.le_refl _, Nat.zero_le _⟩

/-- A request that failed is as if it had not been made: what fits the old chunk is still to be had. -/
theorem serve_after_refusal {f : Failure} {less : Nat} (failed : s.buffer.allocate s.shared size = .error f)
    (held : s.buffer.cursor ≠ 0) (fits : less ≤ s.buffer.free) :
    s.serve [.carve size, .carve less] =
      s.after s.shared { s.buffer with cursor := s.buffer.cursor + less } [.part s.number ⟨s.buffer.cursor, less⟩] := by
  have refused : s.perform (.carve size) = .error f := by
    rw [perform, failed]
    rfl
  have served : s.perform (.carve less) = .ok (s.after s.shared { s.buffer with cursor := s.buffer.cursor + less }
      [.part s.number ⟨s.buffer.cursor, less⟩]) := by
    rw [perform, TwinBuffer.allocate_of_fits fits held]
    show Except.ok (s.after _ _ (s.taken s.shared ++ _)) = _
    rw [taken_same]
    rfl
  rw [serve, refused, serve, served]
  rfl

/-- Whatever is asked of buffers and shared heap in whatever order, all that is handed out is apart, backed and counted. -/
theorem parts_apart_and_counted {a : Arena} (new : Arena.new start reserve chunk = .ok a) (word : chunk < wordLimit)
    (small : reserve < Arena.backingLimit) (page : Nat) (rs : List Request) :
    let s := (Supply.new a page).serve rs
    s.handed.Pairwise Block.Apart ∧
      (∀ b ∈ s.handed, s.shared.Spans b.start b.size) ∧
      s.shared.used ≤ s.shared.committed ∧
      (∀ i b, .part i b ∈ s.grants → ∃ c : Block, .chunk i c ∈ s.grants ∧ b.Within c.start c.size) ∧
      s.shared.used = s.directBytes + s.reserved ∧
      (∀ b ∈ s.buffers, b.cursor ≤ b.limit ∧ b.limit ≤ s.shared.freePointer) ∧
      s.shared.freePointer < wordLimit ∧
      s.buffer.pageSize = max s.page 1 ∧
      (∀ size, s.buffer.Carves s.shared size (s.buffer.allocate s.shared size)) ∧
      ∀ size f less, s.buffer.allocate s.shared size = .error f → 0 < less → less ≤ s.buffer.free →
        s.serve [.carve size, .carve less] =
          s.after s.shared { s.buffer with cursor := s.buffer.cursor + less }
            [.part s.number ⟨s.buffer.cursor, less⟩] := by
  intro s
  have h : s.Carved start reserve chunk := (carved_new new word small page).serve rs
  refine ⟨h.covers.apart, h.covers.inside, h.backed.used_le, h.whole, h.counted, h.ordered, s.shared.freePointer_lt,
    h.pageSize, h.serves, ?_⟩
  intro size f less failed pos fits
  refine serve_after_refusal failed (fun bare => ?_) fits
  simp only [TwinBuffer.free, h.chunkless bare] at fits
  omega

end

def narrow : Arena := (Arena.new 0x1000 200 16).toOption.get (by decide +kernel)

theorem new_narrow : Arena.new 0x1000 200 16 = .ok narrow := rfl

/-- Two chunks with other bytes between them, a page of no bytes and one of all words. -/
def Request.mixed : List Request :=
  [.carve 8, .direct 5, .carve 24, .carve 40, .renew 0, .carve 3, .renew 0xffffffffffffffff, .carve 1, .renew 64, .carve 10]

def ofMixed : Supply := (Supply.new narrow 32).serve Request.mixed

/-- What is left of the fourth buffer's chunk is handed out after another chunk was refused. -/
theorem parts_apart_and_counted_ofMixed :
    Arena.new 0x1000 200 16 = .ok narrow ∧ 16 < wordLimit ∧ 200 < Arena.backingLimit ∧
      ofMixed.grants =
        [.chunk 0 ⟨0x1000, 32⟩, .part 0 ⟨0x1000, 8⟩, .direct ⟨0x1020, 5⟩, .part 0 ⟨0x1008, 24⟩, .chunk 0 ⟨0x1025, 40⟩,
          .part 0 ⟨0x1025, 40⟩, .chunk 1 ⟨0x104d, 3⟩, .part 1 ⟨0x104d, 3⟩, .chunk 3 ⟨0x1050, 64⟩, .part 3 ⟨0x1050, 10⟩] ∧
      ofMixed.handed.Pairwise Block.Apart ∧ ofMixed.shared.used = 5 + ofMixed.reserved ∧
      ofMixed.buffer.allocate ofMixed.shared 100 = .error (.refused (.outOfSpace 100 56)) ∧
      (ofMixed.serve [.carve 100, .carve 54]).grants = ofMixed.grants ++ [.part 3 ⟨0x105a, 54⟩] := by
  obtain ⟨apart, -, -, -, counted, -, -, -, -, smaller⟩ :=
    parts_apart_and_counted new_narrow (by decide) (by decide) 32 Request.mixed
  have asked : max 100 ofMixed.buffer.pageSize = 100 := by decide +kernel
  have remaining : ofMixed.shared.remaining = 56 := by decide +kernel
  have refused : ofMixed.buffer.allocate ofMixed.shared 100 =
      .error (.refused (.outOfSpace (max 100 ofMixed.buffer.pageSize) ofMixed.shared.remaining)) :=
    TwinBuffer.allocate_of_full (by decide +kernel) (by decide +kernel)
  rw [asked, remaining] at refused
  have served := congrArg grants (smaller 100 _ 54 refused (by decide) (by decide +kernel))
  exact ⟨new_narrow, by decide, by decide, by decide +kernel, apart, counted, refused, served⟩

end Supply

end TxHeap
