/-
  TxHeap.Proofs.Lockstep — steps from two states at once.

  `Both x y s s' ok bad` says that the steps `x` from `s` and `y` from `s'` end in the same way:
  both answer, as `ok` says, or both fail with the same failure, as `bad` says. Like for
  `Ends` there is a rule for each way to build a step.

  Arenas are `Like` one another if they have handed out the same and hold the same bytes, but
  for some marks: the headers of certain objects may bear the mark of a copy in the one arena
  and not in the other. Whatever is asked clear of these headers has the same answer in both.
-/
import TxHeap.TwinBuffer
import TxHeap.Ends
import TxHeap.Proofs.Headers

namespace TxHeap

/-! ## Attempts -/

namespace Attempt

variable {α β γ δ : Type} {x : Attempt α} {y : Attempt β} {R : α → β → Prop}

/-- Both attempts succeed, with results that are related, or both fail with the same failure. -/
def Both (R : α → β → Prop) (x : Attempt α) (y : Attempt β) : Prop :=
  match x, y with
  | .ok a, .ok b => R a b
  | .error f, .error g => f = g
  | _, _ => False

theorem both_of_eq {x y : Attempt α} (h : x = y) : Both (· = ·) x y := by
  subst h
  cases x <;> rfl

theorem both_refl {R : α → α → Prop} {x : Attempt α} (h : ∀ a, R a a) : Both R x x := by
  cases x
  · exact rfl
  · exact h _

theorem Both.cases (h : Both R x y) : (∃ a b, x = .ok a ∧ y = .ok b ∧ R a b) ∨ ∃ f, x = .error f ∧ y = .error f := by
  cases x <;> cases y
  · exact .inr ⟨_, rfl, congrArg _ (Eq.symm h)⟩
  · exact h.elim
  · exact h.elim
  · exact .inl ⟨_, _, rfl, rfl, h⟩

theorem Both.mono {S : α → β → Prop} (h : Both R x y) (sub : ∀ a b, R a b → S a b) : Both S x y := by
  obtain ⟨a, b, rfl, rfl, h⟩ | ⟨f, rfl, rfl⟩ := h.cases
  · exact sub a b h
  · rfl

theorem both_bind {S : γ → δ → Prop} {f : α → Attempt γ} {g : β → Attempt δ} (h : Both R x y)
    (hfg : ∀ a b, R a b → x = .ok a → y = .ok b → Both S (f a) (g b)) : Both S (x >>= f) (y >>= g) := by
  obtain ⟨a, b, hx, hy, related⟩ | ⟨e, rfl, rfl⟩ := h.cases
  · have next := hfg a b related hx hy
    subst hx hy
    exact next
  · exact rfl

/-- Where what comes next is the same for related results, the whole is the same. -/
theorem Both.bind_eq {f : α → Attempt γ} {g : β → Attempt γ} (h : Both R x y) (same : ∀ a b, R a b → f a = g b) :
    x >>= f = y >>= g := by
  obtain ⟨a, b, rfl, rfl, h⟩ | ⟨e, rfl, rfl⟩ := h.cases
  · exact same a b h
  · rfl

theorem both_demand {S : α → β → Prop} {condition : Prop} [Decidable condition] {cause : Refusal} {f : Unit → Attempt α}
    {g : Unit → Attempt β} (h : condition → Both S (f ()) (g ())) :
    Both S (demand condition cause >>= f) (demand condition cause >>= g) :=
  both_bind (both_of_eq rfl) fun _ _ _ hx _ => h (demand_eq_ok.1 hx)

end Attempt

/-! ## Steps -/

namespace Step

variable {σ α β γ δ : Type} {s s' : σ} {ok : α → β → σ → σ → Prop} {ok' : γ → δ → σ → σ → Prop} {bad : σ → σ → Prop}

def Both (x : Step σ α) (y : Step σ β) (s s' : σ) (ok : α → β → σ → σ → Prop) (bad : σ → σ → Prop) : Prop :=
  match x s, y s' with
  | .ok a t, .ok b t' => ok a b t t'
  | .error f t, .error g t' => f = g ∧ bad t t'
  | _, _ => False

theorem both_of_ok {x : Step σ α} {y : Step σ β} {a : α} {b : β} {t t' : σ} (hx : x s = .ok a t) (hy : y s' = .ok b t')
    (h : ok a b t t') : Both x y s s' ok bad := by
  unfold Both
  rw [hx, hy]
  exact h

theorem both_of_error {x : Step σ α} {y : Step σ β} {f : Failure} {t t' : σ} (hx : x s = .error f t) (hy : y s' = .error f t')
    (h : bad t t') : Both x y s s' ok bad := by
  unfold Both
  rw [hx, hy]
  exact ⟨rfl, h⟩

/-- The two steps have ended, in one way or the other. -/
theorem Both.cases {x : Step σ α} {y : Step σ β} (h : Both x y s s' ok bad) :
    (∃ a b t t', x s = .ok a t ∧ y s' = .ok b t' ∧ ok a b t t') ∨
      ∃ f t t', x s = .error f t ∧ y s' = .error f t' ∧ bad t t' := by
  unfold Both at h
  split at h
  · rename_i a t b t' hx hy
    exact .inl ⟨a, b, t, t', hx, hy, h⟩
  · rename_i f t g t' hx hy
    exact .inr ⟨f, t, t', hx, h.1 ▸ hy, h.2⟩
  · exact h.elim

theorem Both.of_ok {x : Step σ α} {y : Step σ β} {a : α} {t : σ} (h : Both x y s s' ok bad) (hx : x s = .ok a t) :
    ∃ b t', y s' = .ok b t' ∧ ok a b t t' := by
  obtain ⟨a', b, _, t', hx', hy, h⟩ | ⟨_, _, _, hx', -, -⟩ := h.cases <;> rw [hx] at hx' <;> cases hx'
  exact ⟨b, t', hy, h⟩

theorem Both.of_error {x : Step σ α} {y : Step σ β} {f : Failure} {t : σ} (h : Both x y s s' ok bad)
    (hx : x s = .error f t) : ∃ t', y s' = .error f t' ∧ bad t t' := by
  obtain ⟨_, _, _, _, hx', -, -⟩ | ⟨_, _, t', hx', hy, h⟩ := h.cases <;> rw [hx] at hx' <;> cases hx'
  exact ⟨t', hy, h⟩

theorem both_bind {x : Step σ γ} {y : Step σ δ} {f : γ → Step σ α} {g : δ → Step σ β}
    (h : Both x y s s' (fun a b t t' => Both (f a) (g b) t t' ok bad) bad) : Both (x >>= f) (y >>= g) s s' ok bad := by
  obtain ⟨a, b, t, t', hx, hy, h⟩ | ⟨e, t, t', hx, hy, h⟩ := h.cases
  · unfold Both
    rw [bind_apply, bind_apply, hx, hy]
    exact h
  · exact both_of_error (by rw [bind_apply, hx]) (by rw [bind_apply, hy]) h

theorem both_map {x : Step σ γ} {y : Step σ δ} {f : γ → α} {g : δ → β}
    (h : Both x y s s' (fun a b t t' => ok (f a) (g b) t t') bad) : Both (f <$> x) (g <$> y) s s' ok bad := by
  obtain ⟨a, b, t, t', hx, hy, h⟩ | ⟨e, t, t', hx, hy, h⟩ := h.cases
  · exact both_of_ok (by rw [map_apply, hx]) (by rw [map_apply, hy]) h
  · exact both_of_error (by rw [map_apply, hx]) (by rw [map_apply, hy]) h

theorem Both.mono {x : Step σ α} {y : Step σ β} {ok₁ : α → β → σ → σ → Prop} {bad₁ : σ → σ → Prop}
    (h : Both x y s s' ok bad) (hok : ∀ a b t t', ok a b t t' → ok₁ a b t t') (hbad : ∀ t t', bad t t' → bad₁ t t') :
    Both x y s s' ok₁ bad₁ := by
  obtain ⟨a, b, t, t', hx, hy, h⟩ | ⟨f, t, t', hx, hy, h⟩ := h.cases
  · exact both_of_ok hx hy (hok a b t t' h)
  · exact both_of_error hx hy (hbad t t' h)

/-- What is said of the first step alone may be added. -/
theorem Both.given {x : Step σ α} {y : Step σ β} {ok₁ : α → σ → Prop} {bad₁ : Failure → σ → Prop} (h : Both x y s s' ok bad)
    (ends : Ends x s ok₁ bad₁) : Both x y s s' (fun a b t t' => ok a b t t' ∧ ok₁ a t) bad := by
  obtain ⟨a, b, t, t', hx, hy, h⟩ | ⟨f, t, t', hx, hy, h⟩ := h.cases
  · exact both_of_ok hx hy ⟨h, ends.of_ok hx⟩
  · exact both_of_error hx hy h

theorem both_get {ok : σ → σ → σ → σ → Prop} (h : ok s s' s s') : Both get get s s' ok bad := h

theorem both_modify {f g : σ → σ} {ok : Unit → Unit → σ → σ → Prop} (h : ok () () (f s) (g s')) :
    Both (modify f) (modify g) s s' ok bad := h

theorem both_ofAttempt {R : α → β → Prop} {x : Attempt α} {y : Attempt β} (h : x.Both R y)
    (hok : ∀ a b, R a b → x = .ok a → y = .ok b → ok a b s s') (hbad : bad s s') :
    Both (ofAttempt x) (ofAttempt y) s s' ok bad := by
  obtain ⟨a, b, hx, hy, related⟩ | ⟨f, rfl, rfl⟩ := h.cases
  · have next := hok a b related hx hy
    subst hx hy
    exact next
  · exact ⟨rfl, hbad⟩

/-- Attempts that are known to succeed. -/
theorem both_ofAttempt_ok {x : Attempt α} {y : Attempt β} {a : α} {b : β} (hx : x = .ok a) (hy : y = .ok b)
    (h : ok a b s s') : Both (ofAttempt x) (ofAttempt y) s s' ok bad := by
  subst hx hy
  exact h

/-- The same attempt in both states. -/
theorem both_attempt {ok : α → α → σ → σ → Prop} {x : Attempt α} (hok : ∀ a, x = .ok a → ok a a s s') (hbad : bad s s') :
    Both (ofAttempt x) (ofAttempt x) s s' ok bad :=
  both_ofAttempt (Attempt.both_of_eq rfl) (fun a _ e hx _ => e ▸ hok a hx) hbad

theorem both_demand {ok : Unit → Unit → σ → σ → Prop} {condition : Prop} [Decidable condition] {cause : Refusal}
    (hok : condition → ok () () s s') (hbad : bad s s') :
    Both (demand condition cause) (demand condition cause) s s' ok bad :=
  both_attempt (fun _ h => hok (Attempt.demand_eq_ok.1 h)) hbad

/-- What each round of two loops keeps, the loops keep. -/
theorem both_forM {f g : γ → Step σ Unit} (I : σ → σ → Prop) {as : List γ}
    (round : ∀ a ∈ as, ∀ s s', I s s' → Both (f a) (g a) s s' (fun _ _ t t' => I t t') I) (h : I s s') :
    Both (as.forM f) (as.forM g) s s' (fun _ _ t t' => I t t') I := by
  induction as generalizing s s' with
  | nil => exact h
  | cons a as ih =>
    show Both (f a >>= fun _ => as.forM f) (g a >>= fun _ => as.forM g) s s' _ _
    refine both_bind ((round a List.mem_cons_self s s' h).mono (fun _ _ t t' ht => ?_) fun _ _ h => h)
    exact ih (fun b hb => round b (List.mem_cons_of_mem a hb)) ht

/-- From related states the step answers the same, or fails alike, and leaves related states. -/
def Respects (x : Step σ α) (R : σ → σ → Prop) : Prop :=
  ∀ s s', R s s' → Both x x s s' (fun a b t t' => b = a ∧ R t t') R

section

variable {R : σ → σ → Prop}

theorem respects_pure (a : α) : (pure a : Step σ α).Respects R := fun _ _ h => ⟨rfl, h⟩

theorem respects_throw (f : Failure) : (throw f : Step σ α).Respects R := fun _ _ h => ⟨rfl, h⟩

theorem respects_ofAttempt (x : Attempt α) : (ofAttempt x : Step σ α).Respects R := by
  intro s s' h
  exact both_attempt (fun _ _ => ⟨rfl, h⟩) h

theorem respects_demand {condition : Prop} [Decidable condition] {cause : Refusal} :
    (demand condition cause : Step σ Unit).Respects R :=
  respects_ofAttempt _

theorem respects_modify {f : σ → σ} (h : ∀ s s', R s s' → R (f s) (f s')) : (modify f : Step σ Unit).Respects R :=
  fun s s' same => ⟨rfl, h s s' same⟩

theorem respects_bind {x : Step σ α} {f : α → Step σ β} (hx : x.Respects R) (hf : ∀ a, (f a).Respects R) :
    (x >>= f).Respects R := by
  intro s s' h
  refine both_bind ((hx s s' h).mono ?_ fun _ _ h => h)
  rintro _ a t t' ⟨rfl, same⟩
  exact hf a t t' same

theorem respects_map {x : Step σ α} {f : α → β} (hx : x.Respects R) : (f <$> x).Respects R := by
  intro s s' h
  refine both_map ((hx s s' h).mono ?_ fun _ _ h => h)
  rintro a _ t t' ⟨rfl, same⟩
  exact ⟨rfl, same⟩

/-- The state may be asked for what is the same in related states. -/
theorem respects_get {f : σ → Step σ α} (h : ∀ s, (f s).Respects R) (same : ∀ s s', R s s' → f s' = f s) :
    (get >>= f).Respects R := by
  intro s s' related
  refine both_bind (both_get ?_)
  rw [same s s' related]
  exact h s s s' related

theorem respects_forM {f : α → Step σ Unit} {as : List α} (hf : ∀ a ∈ as, (f a).Respects R) : (as.forM f).Respects R := by
  induction as with
  | nil => exact respects_pure _
  | cons a as ih =>
    exact respects_bind (hf a List.mem_cons_self) fun _ => ih fun b hb => hf b (List.mem_cons_of_mem a hb)

end

end Step

/-! ## Arenas -/

/-- What is known of the marks in two arenas. -/
structure Marks where
  /-- Objects that may be marked in one of the arenas only. -/
  objects : List Nat
  /-- Of these, objects that are marked in both. -/
  copied : List Nat

namespace Marks

def none : Marks := ⟨[], []⟩

/-- No header with a mark is touched by the access. -/
def Clear (m : Marks) (addr len : Nat) : Prop := ∀ x ∈ m.objects, addr + len ≤ x ∨ x + headerSize ≤ addr

theorem clear_none (addr len : Nat) : none.Clear addr len := List.forall_mem_nil _

theorem below_none (base : Nat) : ∀ x ∈ none.objects, x + headerSize ≤ base := List.forall_mem_nil _

theorem Clear.sub {m : Marks} {addr len addr' len' : Nat} (h : m.Clear addr len) (start : addr ≤ addr')
    (stop : addr' + len' ≤ addr + len) : m.Clear addr' len' := by
  intro x hx
  have := h x hx
  omega

/-- Everything above the headers is clear. -/
theorem clear_above {m : Marks} {base addr len : Nat} (below : ∀ x ∈ m.objects, x + headerSize ≤ base) (above : base ≤ addr) :
    m.Clear addr len :=
  fun x hx => .inr (Nat.le_trans (below x hx) above)

end Marks

namespace Arena

def withMemory (a : Arena) (memory : Memory) : Arena := { a with memory }

/-- The arenas have handed out the same, and hold the same bytes but for the marks. -/
structure Like (m : Marks) (a b : Arena) : Prop where
  extent : b = a.withMemory b.memory
  bytes : ∀ i, m.Clear i 1 → b.memory.get i = a.memory.get i
  marks : ∀ x ∈ m.objects, (b.memory.headerAt x).markCopied = (a.memory.headerAt x).markCopied
  copied : ∀ x ∈ m.copied,
    x ∈ m.objects ∧ (a.memory.headerAt x).isCopied = true ∧ (b.memory.headerAt x).isCopied = true

variable {addr size value obj len : Nat} {a b a' b' : Arena} {m : Marks} {bytes : List UInt8} {h : Header}

namespace Like

theorem refl (a : Arena) (copied : ∀ x ∈ m.copied, x ∈ m.objects ∧ (a.memory.headerAt x).isCopied = true) :
    a.Like m a :=
  ⟨rfl, fun _ _ => rfl, fun _ _ => rfl, fun x hx => ⟨(copied x hx).1, (copied x hx).2, (copied x hx).2⟩⟩

theorem refl_none (a : Arena) : a.Like .none a := ⟨rfl, fun _ _ => rfl, fun _ _ => rfl, nofun⟩

theorem start (h : a.Like m b) : b.start = a.start := by rw [h.extent, withMemory]

theorem used (h : a.Like m b) : b.used = a.used := by rw [h.extent, withMemory]

theorem contains (h : a.Like m b) (addr : Nat) : b.contains addr = a.contains addr := by
  simp only [Arena.contains, h.start, h.used]

theorem checkAccess (h : a.Like m b) (addr len : Nat) : b.checkAccess addr len = a.checkAccess addr len := by
  simp only [Arena.checkAccess, h.start, h.used]

/-! ### Questions -/

theorem same (h : a.Like m b) (clear : m.Clear addr len) {i : Nat} (hl : addr ≤ i) (hu : i < addr + len) :
    b.memory.get i = a.memory.get i :=
  h.bytes i (clear.sub hl hu)

theorem read_memory (h : a.Like m b) (clear : m.Clear addr len) : b.memory.read addr len = a.memory.read addr len :=
  Memory.read_congr fun _ hl hu => h.same clear hl hu

theorem readWord_memory (h : a.Like m b) (clear : m.Clear addr wordSize) :
    b.memory.readWord addr = a.memory.readWord addr :=
  Memory.readWord_congr fun _ hl hu => h.same clear hl hu

theorem headerAt (h : a.Like m b) (clear : m.Clear obj headerSize) : b.memory.headerAt obj = a.memory.headerAt obj :=
  Memory.headerAt_congr fun _ hl hu => h.same clear hl hu

theorem read (h : a.Like m b) (clear : m.Clear addr len) : b.read addr len = a.read addr len := by
  rw [Arena.read, Arena.read, h.checkAccess, h.read_memory clear]

theorem readWord (h : a.Like m b) (clear : m.Clear addr wordSize) : b.readWord addr = a.readWord addr := by
  rw [Arena.readWord, Arena.readWord, h.checkAccess, h.readWord_memory clear]

theorem header (h : a.Like m b) (clear : m.Clear obj headerSize) : b.header obj = a.header obj := by
  have same := h.headerAt clear
  rw [Memory.headerAt, Memory.headerAt] at same
  rw [Arena.header, Arena.header, h.checkAccess]
  simp only [same]

/-- The header of an object that may be marked in one of them. -/
theorem both_header (h : a.Like m b) (hobj : obj ∈ m.objects) :
    Attempt.Both (fun head head' => head'.markCopied = head.markCopied) (a.header obj) (b.header obj) := by
  have marks := h.marks obj hobj
  rw [Memory.headerAt, Memory.headerAt] at marks
  rw [Arena.header, Arena.header, h.checkAccess]
  exact Attempt.both_demand fun _ => marks

/-! ### Changes -/

theorem extent_store (h : a.Like m b) (ma mb : Memory) :
    { b with memory := mb } = withMemory { a with memory := ma } mb := by
  have extent := h.extent
  rw [withMemory] at extent
  rw [extent, withMemory]

/-- The same bytes are stored in both, clear of the headers. -/
theorem store {ma mb : Memory} (h : a.Like m b) (clear : m.Clear addr len)
    (out : ∀ i, i < addr ∨ addr + len ≤ i → ma.get i = a.memory.get i ∧ mb.get i = b.memory.get i)
    (same : ∀ i, m.Clear i 1 → mb.get i = ma.get i) : Like m { a with memory := ma } { b with memory := mb } := by
  have heads : ∀ x ∈ m.objects, ma.headerAt x = a.memory.headerAt x ∧ mb.headerAt x = b.memory.headerAt x := by
    intro x hx
    have apart := clear x hx
    exact ⟨Memory.headerAt_congr fun i _ _ => (out i (by omega)).1, Memory.headerAt_congr fun i _ _ => (out i (by omega)).2⟩
  refine ⟨h.extent_store ma mb, same, ?_, ?_⟩
  · intro x hx
    rw [(heads x hx).1, (heads x hx).2]
    exact h.marks x hx
  · intro x hx
    obtain ⟨hobj, copied⟩ := h.copied x hx
    rw [(heads x hobj).1, (heads x hobj).2]
    exact ⟨hobj, copied⟩

theorem bytes_write {ma mb : Memory} (same : ∀ i, m.Clear i 1 → mb.get i = ma.get i) (addr : Nat) (bytes : List UInt8) (i : Nat)
    (hi : m.Clear i 1) : (mb.write addr bytes).get i = (ma.write addr bytes).get i := by
  rw [Memory.get_write, Memory.get_write, same i hi]

/-- Stretches of one length are read, or cannot be, in both. -/
theorem both_read (h : a.Like m b) (addr len : Nat) :
    Attempt.Both (fun bytes bytes' => bytes = a.memory.read addr len ∧ bytes' = b.memory.read addr len) (a.read addr len)
      (b.read addr len) := by
  rw [Arena.read, Arena.read, h.checkAccess]
  exact Attempt.both_demand fun _ => ⟨rfl, rfl⟩

theorem both_write {bytes' : List UInt8} (h : a.Like m b) (length : bytes'.length = bytes.length) (addr : Nat) :
    Attempt.Both (fun x y => x = { a with memory := a.memory.write addr bytes } ∧
      y = { b with memory := b.memory.write addr bytes' }) (a.write addr bytes) (b.write addr bytes') := by
  rw [Arena.write, Arena.write, h.checkAccess, length]
  exact Attempt.both_demand fun _ => ⟨rfl, rfl⟩

theorem both_setHeader {ma mb : Memory} {head' : Header} (h : a.Like m b) (obj : Nat) (head : Header) :
    Attempt.Both (fun x y => x = { a with memory := ma.setHeaderAt obj head } ∧
        y = { b with memory := mb.setHeaderAt obj head' })
      (Arena.setHeader { a with memory := ma } obj head) (Arena.setHeader { b with memory := mb } obj head') := by
  have check : Arena.checkAccess { b with memory := mb } obj headerSize =
      Arena.checkAccess { a with memory := ma } obj headerSize :=
    h.checkAccess obj headerSize
  rw [Arena.setHeader, Arena.setHeader, check]
  exact Attempt.both_demand fun _ => ⟨rfl, rfl⟩

theorem write (h : a.Like m b) (clear : m.Clear addr bytes.length) :
    Attempt.Both (Like m) (a.write addr bytes) (b.write addr bytes) := by
  rw [Arena.write, Arena.write, h.checkAccess]
  refine Attempt.both_demand fun _ => h.store clear ?_ (bytes_write h.bytes addr bytes)
  exact fun i hi => ⟨Memory.get_write_of_apart hi, Memory.get_write_of_apart hi⟩

theorem writeWord (h : a.Like m b) (clear : m.Clear addr wordSize) (value : Nat) :
    Attempt.Both (Like m) (a.writeWord addr value) (b.writeWord addr value) := by
  rw [Arena.writeWord, Arena.writeWord, h.checkAccess]
  refine Attempt.both_demand fun _ => h.store clear ?_ (bytes_write h.bytes addr _)
  exact fun i hi => ⟨Memory.get_writeWord_of_apart hi, Memory.get_writeWord_of_apart hi⟩

theorem setHeader (h : a.Like m b) (clear : m.Clear obj headerSize) (head : Header) :
    Attempt.Both (Like m) (a.setHeader obj head) (b.setHeader obj head) := by
  rw [Arena.setHeader, Arena.setHeader, h.checkAccess]
  refine Attempt.both_demand fun _ => h.store clear ?_ ?_
  · exact fun i hi => ⟨Memory.get_setHeaderAt_of_apart hi, Memory.get_setHeaderAt_of_apart hi⟩
  · exact bytes_write (bytes_write h.bytes _ _) _ _

/-- Where nothing is marked, the arenas are like if all bytes are the same. -/
theorem of_bytes {ma mb : Memory} (h : a.Like .none b) (same : ∀ i, mb.get i = ma.get i) :
    Like .none { a with memory := ma } { b with memory := mb } :=
  ⟨h.extent_store ma mb, fun i _ => same i, nofun, nofun⟩

/-- An object is copied to the same place in both, under a new header; the headers it had may differ. -/
theorem copyObject {n n' : Arena} {copy : Nat} {head : Header} {ma mb : Memory} (h : n.Like .none n')
    (same : ∀ i, obj + headerSize ≤ i → i < obj + size → mb.get i = ma.get i) :
    Like .none { n with memory := (n.memory.write copy (ma.read obj size)).setHeaderAt copy head }
      { n' with memory := (n'.memory.write copy (mb.read obj size)).setHeaderAt copy head } := by
  refine h.of_bytes fun i => ?_
  refine Memory.get_setHeaderAt_congr fun outside => ?_
  rw [Memory.get_write, Memory.get_write, Memory.length_read, Memory.length_read, h.bytes i nofun]
  by_cases inside : copy ≤ i ∧ i < copy + size
  · rw [if_pos inside, if_pos inside, List.getD_eq_getElem?_getD, List.getD_eq_getElem?_getD, Memory.getElem?_read,
      Memory.getElem?_read, if_pos (by omega), if_pos (by omega), same _ (by omega) (by omega)]
  · rw [if_neg inside, if_neg inside]

/-- An object that is marked in both is known to be. -/
theorem copy (h : a.Like m b) (hobj : obj ∈ m.objects) (copied : (a.memory.headerAt obj).isCopied = true)
    (copied' : (b.memory.headerAt obj).isCopied = true) : a.Like ⟨m.objects, obj :: m.copied⟩ b := by
  refine ⟨h.extent, h.bytes, h.marks, ?_⟩
  intro x hx
  rcases List.mem_cons.mp hx with rfl | hx
  · exact ⟨hobj, copied, copied'⟩
  · exact h.copied x hx

/-- An object is marked in the first arena. -/
theorem mark (h : a.Like m b) (apart : ∀ x ∈ m.objects, x ≠ obj → x + headerSize ≤ obj ∨ obj + headerSize ≤ x)
    (hobj : obj ∈ m.objects) (fits : (a.memory.headerAt obj).markCopied.Fits) :
    Like m { a with memory := a.memory.setHeaderAt obj (a.memory.headerAt obj).markCopied } b := by
  have self := Memory.headerAt_setHeaderAt (m := a.memory) (a := obj) fits
  have out : ∀ i, i < obj ∨ obj + headerSize ≤ i →
      (a.memory.setHeaderAt obj (a.memory.headerAt obj).markCopied).get i = a.memory.get i :=
    fun i hi => Memory.get_setHeaderAt_of_apart hi
  generalize a.memory.setHeaderAt obj (a.memory.headerAt obj).markCopied = ma at *
  have other : ∀ x ∈ m.objects, x ≠ obj → ma.headerAt x = a.memory.headerAt x := by
    intro x hx ne
    have := apart x hx ne
    exact Memory.headerAt_congr fun i _ _ => out i (by omega)
  refine ⟨h.extent.trans (by simp only [withMemory]), ?_, ?_, ?_⟩
  · intro i hi
    have := hi obj hobj
    exact (h.bytes i hi).trans (out i (by omega)).symm
  · intro x hx
    by_cases e : x = obj
    · rw [e, self, Header.markCopied_markCopied]
      exact h.marks obj hobj
    · rw [other x hx e]
      exact h.marks x hx
  · intro x hx
    obtain ⟨mem, copied, copied'⟩ := h.copied x hx
    refine ⟨mem, ?_, copied'⟩
    by_cases e : x = obj
    · rw [e, self]
      exact Header.isCopied_markCopied _
    · rw [other x mem e]
      exact copied

theorem symm (h : a.Like m b) : b.Like m a := by
  refine ⟨?_, fun i hi => (h.bytes i hi).symm, fun x hx => (h.marks x hx).symm, fun x hx => ?_⟩
  · rw [h.extent, withMemory, withMemory]
  · obtain ⟨mem, copied, copied'⟩ := h.copied x hx
    exact ⟨mem, copied', copied⟩

/-- An object is marked in both. -/
theorem both_mark (h : a.Like m b) (apart : ∀ x ∈ m.objects, x ≠ obj → x + headerSize ≤ obj ∨ obj + headerSize ≤ x)
    (hobj : obj ∈ m.objects) (fits : (a.memory.headerAt obj).markCopied.Fits) :
    Like ⟨m.objects, obj :: m.copied⟩ { a with memory := a.memory.setHeaderAt obj (a.memory.headerAt obj).markCopied }
      { b with memory := b.memory.setHeaderAt obj (b.memory.headerAt obj).markCopied } := by
  have fits' : (b.memory.headerAt obj).markCopied.Fits := by rwa [h.marks obj hobj]
  refine (((h.mark apart hobj fits).symm.mark apart hobj fits').symm).copy hobj ?_ ?_
  · rw [Memory.headerAt_setHeaderAt fits]
    exact Header.isCopied_markCopied _
  · rw [Memory.headerAt_setHeaderAt fits']
    exact Header.isCopied_markCopied _

theorem allocate (h : a.Like m b) (size : Nat) :
    Attempt.Both (fun x y => y.1 = x.1 ∧ x.2.Like m y.2) (a.allocate size) (b.allocate size) := by
  obtain ⟨mem, rfl⟩ : ∃ mem, b = a.withMemory mem := ⟨_, h.extent⟩
  unfold Arena.allocate
  by_cases room : a.used + size ≤ a.reserve
  · rw [dif_pos room, dif_pos (show (a.withMemory mem).used + size ≤ (a.withMemory mem).reserve from room)]
    refine Attempt.both_bind (Attempt.both_of_eq rfl) ?_
    rintro _ committed rfl - -
    exact ⟨rfl, rfl, h.bytes, h.marks, h.copied⟩
  · rw [dif_neg room, dif_neg (show ¬ (a.withMemory mem).used + size ≤ (a.withMemory mem).reserve from room)]
    exact rfl

theorem place (h : a.Like m b) (below : ∀ x ∈ m.objects, x + headerSize ≤ a.freePointer) (size : Nat) (head : Header) :
    Attempt.Both (fun x y => y.1 = x.1 ∧ x.2.Like m y.2) (a.place size head) (b.place size head) := by
  refine Attempt.both_bind (h.allocate size) ?_
  rintro ⟨obj, a'⟩ ⟨obj', b'⟩ ⟨e, like⟩ ha -
  cases e
  obtain ⟨rfl, -⟩ := grew_of_allocate ha
  exact Attempt.both_bind (like.setHeader (Marks.clear_above below (Nat.le_refl _)) head) fun _ _ like' _ _ => ⟨rfl, like'⟩

end Like

end Arena

/-- Room for a twin is found in both at the same address. -/
theorem TwinBuffer.both_allocate {m : Marks} {size : Nat} {a b : Arena} (buffer : TwinBuffer) (h : a.Like m b) :
    Attempt.Both (fun x y => y.1 = x.1 ∧ y.2.1 = x.2.1 ∧ x.2.2.Like m y.2.2) (buffer.allocate a size)
      (buffer.allocate b size) := by
  have room : Attempt.Both (fun x y => y.1 = x.1 ∧ x.2.Like m y.2) (buffer.makeRoom a size) (buffer.makeRoom b size) := by
    rw [makeRoom, makeRoom]
    split
    · refine Attempt.both_bind (h.allocate _) ?_
      rintro ⟨start, a'⟩ ⟨start', b'⟩ ⟨e, like⟩ - -
      cases e
      exact ⟨rfl, like⟩
    · exact ⟨rfl, h⟩
  refine Attempt.both_bind room ?_
  rintro ⟨c, a'⟩ ⟨c', b'⟩ ⟨e, like⟩ - -
  cases e
  exact Attempt.both_demand fun _ => ⟨rfl, rfl, like⟩

end TxHeap
